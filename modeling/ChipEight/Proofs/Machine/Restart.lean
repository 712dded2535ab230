import ChipEight.Proofs.Machine.InPlace
import ChipEight.Proofs.Machine.Noninterference
import ChipEight.Proofs.Machine.Soundness

/-!
# Starting again

A reset leaves nothing of what a machine has been through but its place in the random stream, and a load
is a reset with a program behind it. In place that is a matter of not forgetting a field: memory is
wiped and the font written back, every other field is assigned its first value one by one, and the call
stack is emptied and keeps its depth (`InPlace.reset`). It is the depth of the configuration, as it has
been from the beginning (`Sound`), so nothing of the past is left in it either.

Machines that have been started again are alike but for the generator, and stay so as long as no
instruction asks for a random byte. Whoever has them in front of them cannot tell them apart
(`Interchangeable`).

**Main statements**: `InPlace.on_reset`, `InPlace.on_load` and `Alike.interchangeable`.
-/

namespace ChipEight

namespace Memory

/-- Memory that is wiped and has its font written back is memory as it is switched on. -/
theorem place_glyphs_wiped (m : Memory) :
    (m.place 0 (List.replicate size 0)).place fontStart Font.glyphs = powerOn := by
  -- Wiped memory first: the font is all that is not zero afterwards.
  have hwiped : ∀ c < size, (m.place 0 (List.replicate size 0)).cell c = 0 := by
    intro c hc
    have hlength : (List.replicate size (0 : UInt8)).length = size := List.length_replicate
    have hend : c < 0 + size := Nat.lt_add_left 0 hc
    rw [m.cell_place 0 _ (Nat.le_of_eq (by rw [hlength, Nat.zero_add])) hc, hlength,
      if_pos ⟨Nat.zero_le c, hend⟩, List.getD_eq_getElem?_getD, Nat.sub_zero,
      List.getElem?_replicate_of_lt hc]
    rfl
  refine ext_cell fun c hc ↦ ?_
  rw [cell_place _ _ _ (by decide) hc, cell_powerOn hc, hwiped c hc]
  by_cases hstart : fontStart ≤ c
  · by_cases hend : c < fontStart + Font.glyphs.length
    · rw [if_pos ⟨hstart, hend⟩, if_pos hstart]
    · have hbehind : Font.glyphs.length ≤ c - fontStart := by omega
      rw [if_neg fun h ↦ hend h.2, if_pos hstart, List.getD_eq_getElem?_getD,
        List.getElem?_eq_none hbehind]
      rfl
  · rw [if_neg fun h ↦ hstart h.1, if_neg hstart]

end Memory

namespace InPlace

variable {m : Machine}

/-- Assign its first value to every field but the configuration and the generator. -/
def reset : InPlace Unit := do
  modify fun m ↦ { m with memory := m.memory.place 0 (List.replicate Memory.size 0) }
  modify fun m ↦ { m with memory := m.memory.place Memory.fontStart Font.glyphs }
  modify fun m ↦ { m with display := .blank }
  goTo (UInt16.ofNat Memory.programStart)
  modify fun m ↦ { m with index := .masked 0 }
  modify fun m ↦ { m with registers := .cleared }
  modify fun m ↦ { m with stack := m.stack.clear }
  modify fun m ↦ { m with timers := .stopped }
  modify fun m ↦ { m with keypad := .released }
  modify fun m ↦ { m with keyWait := none }
  modify fun m ↦ { m with fault := none }

/-- Copy a program to where programs start, if it fits. -/
def loadProgram (program : List UInt8) : InPlace Unit := do
  if Memory.size < Memory.programStart + program.length then
    throw (.programTooLarge program.length Memory.capacity)
  modify fun m ↦ { m with memory := m.memory.place Memory.programStart program }

/-- Reset and copy a program, unless it is too long. -/
def load (program : List UInt8) : InPlace Unit := do
  if Memory.capacity < program.length then
    throw (.programTooLarge program.length Memory.capacity)
  reset
  loadProgram program

theorem on_modify (f : Machine → Machine) : (modify f : InPlace PUnit).on m = (.ok ⟨⟩, f m) := rfl

theorem on_goTo (pc : UInt16) : (goTo pc).on m = (.ok ⟨⟩, { m with pc }) := rfl

/-- **A reset in place is a reset of the model**, on every machine whose call stack has the depth of its
configuration. -/
theorem on_reset (hdepth : m.stack.depth = m.config.stackDepth) :
    reset.on m = (.ok ⟨⟩, m.reset) := by
  have hstack : m.stack.clear = .empty m.config.stackDepth := by
    rw [CallStack.clear, hdepth]
    rfl
  -- Only these two fields are not given their first value outright.
  simp only [reset, on_bind, on_modify, on_goTo]
  rw [hstack, Memory.place_glyphs_wiped]
  rfl

theorem on_loadProgram (program : List UInt8) :
    (loadProgram program).on m =
      leaving m ((m.memory.load program).map fun memory ↦ (⟨⟩, { m with memory })) := by
  have hsize : Memory.size = Memory.programStart + Memory.capacity := by decide
  rw [loadProgram, Memory.load]
  by_cases hfits : program.length ≤ Memory.capacity
  · have hroom : ¬ Memory.size < Memory.programStart + program.length := by omega
    rw [if_pos hfits, if_neg hroom]
    rfl
  · have hroom : Memory.size < Memory.programStart + program.length := by omega
    rw [if_neg hfits, if_pos hroom]
    rfl

theorem on_load (hdepth : m.stack.depth = m.config.stackDepth) (program : List UInt8) :
    (load program).on m = leaving m ((m.load program).map fun next ↦ (⟨⟩, next)) := by
  by_cases hfits : program.length ≤ Memory.capacity
  · rw [m.load_of_fits hfits, load]
    simp only [if_neg (Nat.not_lt.2 hfits)]
    show (reset >>= fun _ ↦ loadProgram program).on m = _
    rw [on_bind, on_reset hdepth]
    simp only [on_loadProgram, Memory.load_eq_ok_iff.2 ⟨hfits, rfl⟩]
    rfl
  · rw [m.load_of_not_fits hfits, load]
    simp only [if_pos (Nat.lt_of_not_le hfits)]
    rfl

end InPlace

namespace Machine

variable {m m' : Machine}

/-! ### Machines that cannot be told apart -/

/-- No `CXNN` is carried out in a history. -/
def RandomUnread (m : Machine) (events : List Event) : Prop :=
  ∀ t ∈ m.moments events, ∀ x mask, ¬ t.Executes (.random x mask)

theorem randomUnread_append {before after : List Event} :
    m.RandomUnread (before ++ after) ↔ m.RandomUnread before ∧ (m.run before).RandomUnread after := by
  rw [RandomUnread, moments_append, List.forall_mem_append]
  rfl

theorem RandomUnread.of_isPrefix {before events : List Event} (h : m.RandomUnread events)
    (hbefore : before <+: events) : m.RandomUnread before := by
  obtain ⟨after, rfl⟩ := hbefore
  exact (randomUnread_append.1 h).1

theorem RandomUnread.heedless {events : List Event} (h : m.RandomUnread events) :
    ∀ t ∈ m.moments events, ∀ op, t.Executes op → Part.generator.reads op = false := by
  intro t ht op hop
  cases op with
  | random x mask => exact absurd hop (h t ht x mask)
  | _ => rfl

/-- It is enough to look at the instruction that each moment finds. -/
theorem randomUnread_iff {events : List Event} :
    m.RandomUnread events ↔ ∀ t ∈ m.moments events, ∀ op ∈ Opcode.decode? t.machine.current,
      t.Executes op → Part.generator.reads op = false := by
  refine ⟨fun h t ht op _ ↦ h.heedless t ht op, fun h t ht x mask hop ↦ ?_⟩
  cases h t ht _ hop.2.reads hop

instance (m : Machine) (events : List Event) : Decidable (m.RandomUnread events) :=
  decidable_of_iff _ randomUnread_iff.symm

/-- The generator is all that they may differ in. -/
theorem Alike.exists_generator (h : Alike .generator m m') :
    ∃ generator, m' = { m with generator } := by
  refine ⟨m'.generator, ?_⟩
  have hmachine := h.eq
  rw [h.timers_eq nofun, h.keypad_eq nofun] at hmachine
  exact hmachine

theorem Alike.eq_of_generator (h : Alike .generator m m') (hsame : m'.generator = m.generator) :
    m' = m := by
  obtain ⟨generator, rfl⟩ := h.exists_generator
  obtain rfl : generator = m.generator := hsame
  rfl

/-- To an event that asks for no random byte they reply the same. -/
theorem Alike.reply (h : Alike .generator m m') {event : Event} (hunread : m.RandomUnread [event]) :
    m'.reply event = m.reply event := by
  cases event with
  | load program =>
    show ((Memory.powerOn.load program).map _).map _ = ((Memory.powerOn.load program).map _).map _
    cases Memory.powerOn.load program <;> rfl
  | cycle =>
    have hheedless := hunread.heedless _ List.mem_cons_self
    obtain ⟨houtcome, -⟩ := h.cycle fun op hop ↦ hheedless op ⟨rfl, hop⟩
    rw [Machine.reply, Machine.reply, houtcome]
  | reset | tick | key => rfl

/-- Two machines that nobody can tell apart. Whatever happens to both of them from now on, their cycles
come to the same and they stay the same but for their generators, as long as no random byte is asked
for; and if their generators are at the same place, they stay the same altogether. -/
structure Interchangeable (m m' : Machine) : Prop where
  unread : ∀ later : List Event, m.RandomUnread later →
    m'.outcomes later = m.outcomes later ∧ ∃ generator, m'.run later = { m.run later with generator }
  seeded : m'.generator = m.generator → ∀ later : List Event,
    m'.outcomes later = m.outcomes later ∧ m'.run later = m.run later

/-- **Machines that are alike but for the generator cannot be told apart.** -/
theorem Alike.interchangeable (h : Alike .generator m m') : m.Interchangeable m' where
  unread later hunread := by
    -- No event moves the generator and nothing else, so the two histories are the same one.
    have hsame : m'.outcomes later = m.outcomes later ∧ Alike .generator (m.run later) (m'.run later) :=
      h.run rfl hunread.heedless
    exact ⟨hsame.1, hsame.2.exists_generator⟩
  seeded hsame later := by
    rw [h.eq_of_generator hsame]
    exact ⟨rfl, rfl⟩

/-! ### Restarted machines -/

variable {config : Config}

/-- What is reset is switched on once more. -/
theorem reset_of_config (h : m.config = config) (generator : Generator) :
    m.reset = { powerOn config generator with generator := m.generator } := by
  rw [reset, h]
  rfl

/-- **Nothing is left of the past in a machine that is reset.** -/
theorem alike_reset (h : m.config = config) (h' : m'.config = config) :
    Alike .generator m.reset m'.reset := by
  rw [reset, reset, h, h']
  exact ⟨rfl, fun _ ↦ rfl, fun _ ↦ rfl, nofun, nofun⟩

/-- **Nor is it in a machine that has taken a program**, which is what both of them do. -/
theorem exists_alike_load (h : m.config = config) (h' : m'.config = config) {program : List UInt8}
    (hfits : program.length ≤ Memory.capacity) :
    ∃ loaded loaded', m.load program = .ok loaded ∧ m'.load program = .ok loaded' ∧
      loaded.generator = m.generator ∧ loaded'.generator = m'.generator ∧
        Alike .generator loaded loaded' := by
  have hreset := alike_reset h h'
  refine ⟨_, _, m.load_of_fits hfits, m'.load_of_fits hfits, rfl, rfl, ?_⟩
  exact { hreset with eq := by rw [hreset.eq] }

end Machine

end ChipEight
