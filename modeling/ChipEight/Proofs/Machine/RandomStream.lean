import ChipEight.Proofs.Machine.Footprint

/-!
# The bytes of the random stream

The random stream of a key is one fixed sequence, and a machine reads it from the front. Every `CXNN`
that is carried out takes the next byte, whatever its mask is, and nothing else takes one or puts one
back: not a cycle that fails, waits or is refused, nor a tick or a key, nor a reset or a load. So the
place a machine is at counts the `CXNN` carried out since it was switched on (`generator_run`), and
the `k`-th of them, counted from zero, gets byte `k`.

The place in the stream is the only thing besides the configuration that a restart keeps. What one
event does to it is therefore said of all events alike (`generator_after`).

**Main statement**: `run_powerOn_random`.
-/

namespace ChipEight

/-- Whether an instruction asks for a random byte. -/
def Opcode.asksRandom : Opcode → Bool
  | .random .. => true
  | _ => false

namespace Moment

variable {t : Moment} {x : Digit} {mask : UInt8}

/-- Whether an instruction that asks for a random byte is carried out at a moment. -/
def draws (t : Moment) : Bool := t.carried?.any Opcode.asksRandom

/-- A `CXNN` does not fail. -/
theorem carried_of_executes_random (h : t.Executes (.random x mask)) :
    t.carried? = some (.random x mask) := by
  obtain ⟨m, event⟩ := t
  obtain ⟨rfl, hop⟩ := h
  exact carried_of_execute hop rfl

/-- The moments that draw a byte are those at which a `CXNN` is set about. -/
theorem draws_iff : t.draws = true ↔ ∃ x mask, t.Executes (.random x mask) := by
  constructor
  · intro h
    obtain ⟨op, hop, hasks⟩ := (Option.any_eq_true _ _).1 h
    cases op with
    | random x mask => exact ⟨x, mask, (carried?_eq_some_iff.1 hop).1⟩
    | _ => cases hasks
  · rintro ⟨x, mask, h⟩
    rw [draws, carried_of_executes_random h]
    rfl

/-- **What one event does to the place in the random stream**: it moves on by one byte if the event
draws, and stays where it is if not. -/
theorem generator_after (t : Moment) :
    t.after.generator = if t.draws then t.machine.generator.advance else t.machine.generator := by
  rcases hcarried : t.carried? with - | op
  · rw [draws, hcarried]
    by_cases hrestart : t.event.restarts = true
    · -- A restart keeps the generator; it is the other fields that it sets.
      obtain ⟨_, hafter⟩ := t.machine.apply_of_restarts hrestart
      rw [after, hafter]
      rfl
    · obtain ⟨_, _, _, _, _, hafter⟩ := after_of_not_carried hcarried hrestart
      rw [hafter]
      rfl
  · obtain ⟨-, -, hgenerator⟩ := outputs_of_carried hcarried
    rw [hgenerator, draws, hcarried]
    cases op <;> rfl

end Moment

namespace Machine

variable {m : Machine} {x : Digit} {mask : UInt8}

/-- **The place in the random stream counts the bytes drawn.** -/
theorem generator_run (m : Machine) (events : List Event) :
    (m.run events).generator =
      ⟨m.generator.key, m.generator.drawn + (m.moments events).countP Moment.draws⟩ := by
  induction events generalizing m with
  | nil => rfl
  | cons event events ih =>
    have hafter := Moment.generator_after ⟨m, event⟩
    rw [run_cons, ih, moments_cons, List.countP_cons, show m.apply event = Moment.after ⟨m, event⟩
      from rfl, hafter]
    split
    · rw [Generator.advance, Nat.add_right_comm, Nat.add_assoc]
    · rfl

/-- A `CXNN` puts the byte its machine is at into a register, under the mask, and moves on. -/
theorem Executes.cycle_random (h : m.Executes (.random x mask)) :
    m.cycle = ⟨.ok .proceed, [.fetched m.pc m.current (some (.random x mask))],
      { m with
        pc := m.pc + 2
        registers := m.registers.set x (m.generator.peek &&& mask)
        generator := m.generator.advance }⟩ :=
  h.cycle_of_execute rfl

/-- **The random stream is read once, from the front.** Take any history of a machine that was switched
on at the start of the stream of a key. The `CXNN` that comes after `k` others in it, counted through
resets, loads and faults, puts byte `k` under its mask into its register and leaves the stream at byte
`k + 1`; no other event of the history moves the stream; and at the end it is at the byte that as many
were drawn before. -/
theorem run_powerOn_random (config : Config) (key : ChaCha.Key) (events : List Event) :
    let new := powerOn config ⟨key, 0⟩
    (∀ before t after, new.moments events = before ++ t :: after →
      ∀ x mask, t.Executes (.random x mask) →
        let k := before.countP Moment.draws
        t.outcome? = some (.ok .proceed) ∧ t.machine.generator = ⟨key, k⟩ ∧
          t.after =
            { t.machine with
              pc := t.machine.pc + 2
              registers := t.machine.registers.set x (Generator.byteAt key k &&& mask)
              generator := ⟨key, k + 1⟩ }) ∧
      (∀ t ∈ new.moments events, (∀ x mask, ¬ t.Executes (.random x mask)) →
        t.after.generator = t.machine.generator) ∧
      (new.run events).generator = ⟨key, (new.moments events).countP Moment.draws⟩ := by
  intro new
  have hcount : ∀ earlier, (new.run earlier).generator =
      ⟨key, (new.moments earlier).countP Moment.draws⟩ := by
    intro earlier
    rw [generator_run, show new.generator = ⟨key, 0⟩ from rfl, Nat.zero_add]
  refine ⟨?_, fun t _ hnone ↦ ?_, hcount events⟩
  · intro before t after hmoments x mask hop k
    obtain ⟨earlier, -, -, rfl, hmachine, -⟩ := exists_of_moments_eq hmoments
    have hgenerator : t.machine.generator = ⟨key, k⟩ := by rw [hmachine, hcount]
    have hcycle := hop.2.cycle_random
    rw [Generator.peek, Generator.advance, hgenerator] at hcycle
    refine ⟨?_, hgenerator, ?_⟩
    · rw [Moment.outcome?, hop.1, hcycle]
    · rw [Moment.after, hop.1, apply, hcycle]
  · have hdraws : t.draws = false := by
      rw [Bool.eq_false_iff, ne_eq, Moment.draws_iff]
      rintro ⟨x, mask, hop⟩
      exact hnone x mask hop
    rw [t.generator_after, hdraws]
    rfl

/-- Two bytes are drawn, the first under an empty mask; then the program fails, is refused a cycle, is
reset and loaded once more. The third byte goes under the empty mask again, the timers tick, and the
next `CXNN` puts the fourth byte of the stream of seed 42 into its register. One more reset does not
put it back. -/
theorem fourth_byte_after_reload :
    let program : List UInt8 := [0xC1, 0x00, 0xC2, 0xFF, 0xFF, 0xFF]
    let new := Machine.new ⟨700, 16, some 42⟩
    let earlier : List Event :=
      [.load program, .cycle, .cycle, .cycle, .cycle, .reset, .load program, .cycle, .tick]
    let m := new.run earlier
    m.Executes (.random 2 0xFF) ∧ (new.moments earlier).countP Moment.draws = 3 ∧
      m.cycle.machine.registers.get 2 = Generator.byteAt (Seed.key 42) 3 &&& 0xFF ∧
        m.cycle.machine.reset.generator = ⟨Seed.key 42, 4⟩ := by
  intro program new earlier m
  have h : m.Executes (.random 2 0xFF) := by decide
  have hcount : (new.moments earlier).countP Moment.draws = 3 := by decide
  have hmoments : new.moments (earlier ++ [.cycle, .reset]) =
      new.moments earlier ++ ⟨m, .cycle⟩ :: [⟨m.cycle.machine, .reset⟩] := moments_append _ _
  obtain ⟨hdrawn, hothers, -⟩ :=
    run_powerOn_random ⟨700, 16, some 42⟩ (Seed.key 42) (earlier ++ [.cycle, .reset])
  obtain ⟨-, -, hafter⟩ := hdrawn (new.moments earlier) ⟨m, .cycle⟩ _ hmoments 2 0xFF ⟨rfl, h⟩
  have hmem : ⟨m.cycle.machine, .reset⟩ ∈ new.moments (earlier ++ [.cycle, .reset]) := by
    rw [hmoments]
    exact List.mem_append_right _ (List.mem_cons_of_mem _ List.mem_cons_self)
  have hreset := hothers _ hmem fun _ _ hop ↦ nomatch hop.1
  have hmachine : m.cycle.machine = _ := hafter
  rw [hcount] at hmachine
  refine ⟨h, hcount, ?_, ?_⟩
  · rw [hmachine]
    exact (Registers.get_set _ _ _ _).trans (if_pos rfl)
  · refine Eq.trans hreset ?_
    rw [hmachine]

end Machine

end ChipEight
