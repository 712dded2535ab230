import ChipEight.Proofs.Machine.Steps

/-!
# The interpreter's part of memory

The first 512 bytes hold the font and nothing else, and no program can change that. Three things put
bytes into memory: a power-on, which puts the font there; a load, which starts behind the
interpreter's part; and a write of a running program, which is refused if it starts in it. Since a
write goes upwards from where it starts and does not wrap, it cannot come back to it either, wherever
the index register has been taken by its own wrap-around.

So a glyph that a program points at is a glyph of the font. **Main statement**:
`run_powerOn_interpreter`.
-/

namespace ChipEight

namespace Font

/-- The glyph of a digit, top row first. -/
def glyph (digit : Nat) : List UInt8 := (glyphs.drop (glyphSize * digit)).take glyphSize

/-- The rows of a glyph are consecutive bytes of the font. -/
theorem getElem?_glyph {digit : Nat} (h : digit ≤ 15) (k : Nat) :
    (glyph digit)[k]? =
      if k < glyphSize then some (glyphs.getD (glyphSize * digit + k) 0) else none := by
  have hsize : glyphSize = 5 := rfl
  rw [glyph, List.getElem?_take]
  split
  · have hk : glyphSize * digit + k < glyphs.length := by
      rw [length_glyphs, hsize]
      omega
    rw [List.getElem?_drop, List.getD, List.getElem?_eq_getElem hk, Option.getD_some]
  · rfl

end Font

namespace Memory

/-- The interpreter's part is as it is at power-on. -/
def Intact (m : Memory) : Prop := ∀ a < programStart, m.cell a = powerOn.cell a

variable {m m' : Memory} {a : Nat} {bytes : List UInt8}

/-- At power-on the interpreter's part holds the font, and zeros around it. -/
theorem cell_powerOn_of_lt (h : a < programStart) :
    powerOn.cell a =
      if fontStart ≤ a ∧ a < fontEnd then Font.glyphs.getD (a - fontStart) 0 else 0 := by
  have hstart : programStart = 512 := rfl
  have hsize : size = 4096 := rfl
  have hend : fontEnd = fontStart + Font.glyphs.length := rfl
  rw [cell_powerOn (by omega)]
  by_cases hfont : fontStart ≤ a
  · by_cases hbehind : a < fontEnd
    · rw [if_pos hfont, if_pos ⟨hfont, hbehind⟩]
    · rw [if_pos hfont, if_neg (by omega), List.getD, List.getElem?_eq_none (by omega)]
      rfl
  · rw [if_neg hfont, if_neg (by omega)]

theorem intact_powerOn : powerOn.Intact := fun _ _ ↦ rfl

/-- Bytes that are placed behind the interpreter's part leave it intact. -/
theorem Intact.place (h : m.Intact) (hstart : programStart ≤ a) (hend : a + bytes.length ≤ size) :
    (m.place a bytes).Intact := by
  intro c hc
  rw [cell_place_of_lt hend (by omega)]
  exact h c hc

theorem Intact.write (h : m.Intact) (hwrite : m.write a bytes = .ok m') : m'.Intact := by
  obtain ⟨hstart, hend, rfl⟩ := write_eq_ok_iff.1 hwrite
  exact h.place hstart hend

theorem Intact.load (h : m.Intact) (hload : m.load bytes = .ok m') : m'.Intact := by
  obtain ⟨hlength, rfl⟩ := load_eq_ok_iff.1 hload
  have hcapacity : capacity = size - programStart := rfl
  have hfits : programStart ≤ size := by decide
  exact h.place (Nat.le_refl _) (by omega)

/-- While the interpreter's part is intact, the glyph of every digit is where programs look for it. -/
theorem Intact.slice_glyph (h : m.Intact) {digit : UInt8} (hdigit : digit.toNat ≤ 15) :
    m.slice (glyphAddress digit) Font.glyphSize = .ok (Font.glyph digit.toNat) := by
  have hglyph : glyphAddress digit = 80 + 5 * digit.toNat := rfl
  have hsize : Font.glyphSize = 5 := rfl
  have hstart : fontStart = 80 := rfl
  have hend : fontEnd = 160 := rfl
  have hprogram : programStart = 512 := rfl
  have hmemory : size = 4096 := rfl
  refine slice_eq_ok_iff.2 ⟨by omega, List.ext_getElem? fun k ↦ ?_⟩
  rw [Font.getElem?_glyph hdigit, getElem?_cells]
  split
  · have hrow : glyphAddress digit + k - fontStart = Font.glyphSize * digit.toNat + k := by
      rw [hsize]
      omega
    rw [h _ (by omega), cell_powerOn_of_lt (by omega), if_pos (by omega), hrow]
  · rfl

end Memory

namespace Machine

variable {m next : Machine} {op : Opcode}

/-- Only a store touches memory at all. -/
theorem Effect.intact (effect : Effect m op next) (h : m.memory.Intact) : next.memory.Intact := by
  cases effect with
  | store hwrite => exact h.write hwrite
  | _ => exact h

theorem intact_cycle (h : m.memory.Intact) : m.cycle.machine.memory.Intact := by
  cases m.beat with
  -- Nothing is carried out, so nothing is written.
  | halted _ result | unfetched _ _ _ result | unread _ _ _ _ result | refused _ _ result =>
    rw [result]
    exact h
  | polled _ _ result =>
    rw [result]
    show (m.pollKey _).2.memory.Intact
    unfold pollKey
    split <;> exact h
  | done _ done result =>
    rw [result]
    exact (effect_of_execute done).intact h

/-- **Whatever happens leaves the interpreter's part intact.** -/
theorem intact_apply (event : Event) (h : m.memory.Intact) : (m.apply event).memory.Intact := by
  cases event with
  | load program =>
    rw [apply]
    split
    · rename_i loaded hload
      obtain ⟨memory, hmemory, rfl⟩ := map_eq_ok_iff.1 hload
      exact Memory.intact_powerOn.load hmemory
    · exact h
  | reset => exact Memory.intact_powerOn
  | cycle => exact intact_cycle h
  | tick | key => exact h

theorem intact_run (h : m.memory.Intact) (events : List Event) : (m.run events).memory.Intact :=
  run_of_apply (P := fun m ↦ m.memory.Intact) (fun _ event h ↦ intact_apply event h) h events

/-- Pointing at a glyph moves the index register to it, and to its own address if it is a glyph of the
font. -/
theorem Executes.cycle_pointGlyph {x : Digit} (h : m.Executes (.pointGlyph x)) :
    m.cycle.outcome = .ok .proceed ∧
      ((m.registers.get x).toNat ≤ 15 →
        m.cycle.machine.index.val = Memory.glyphAddress (m.registers.get x)) := by
  rw [h.cycle_of_execute rfl]
  refine ⟨rfl, fun hdigit ↦ ?_⟩
  have hglyph : Memory.glyphAddress (m.registers.get x) = 80 + 5 * (m.registers.get x).toNat := rfl
  show Memory.glyphAddress (m.registers.get x) % 4096 = _
  omega

/-- **The interpreter's part of memory is never corrupted**: after any history it holds the font at
its place and zeros around it. So the glyph a program points at is the one of the font, at once and for
as long as the index register is left there, whatever happens in between. -/
theorem run_powerOn_interpreter (config : Config) (generator : Generator) (events : List Event) :
    let m := (powerOn config generator).run events
    (∀ a < 0x200, m.memory.cell a =
      if 0x50 ≤ a ∧ a < 0xA0 then Font.glyphs.getD (a - 0x50) 0 else 0) ∧
      ∀ x : Digit, m.Executes (.pointGlyph x) → (m.registers.get x).toNat ≤ 15 →
        m.cycle.outcome = .ok .proceed ∧
          ∀ later : List Event, (m.cycle.machine.run later).index = m.cycle.machine.index →
            (m.cycle.machine.run later).memory.slice (m.cycle.machine.run later).index.val 5 =
              .ok (Font.glyph (m.registers.get x).toNat) := by
  intro m
  have hm : m.memory.Intact := intact_run Memory.intact_powerOn events
  refine ⟨fun a ha ↦ ?_, fun x hx hdigit ↦ ⟨hx.cycle_pointGlyph.1, fun later hindex ↦ ?_⟩⟩
  · rw [hm a ha, Memory.cell_powerOn_of_lt ha]
    rfl
  · have hafter : (m.cycle.machine.run later).memory.Intact := intact_run (intact_cycle hm) later
    rw [hindex, hx.cycle_pointGlyph.2 hdigit]
    exact hafter.slice_glyph hdigit

/-- A program that puts 10 into a register and points at its glyph finds the glyph of A there, also
after the timers have ticked and the next cycle has failed. -/
theorem glyph_A_found :
    let m := (powerOn .usual (.ofSeed 0)).run [.load [0x60, 0x0A, 0xF0, 0x29], .cycle]
    let after := m.cycle.machine.run [.tick, .cycle]
    m.Executes (.pointGlyph 0) ∧ (m.registers.get 0).toNat ≤ 15 ∧
      after.index = m.cycle.machine.index ∧
        after.memory.slice after.index.val 5 = .ok (Font.glyph 10) := by
  refine ⟨⟨by decide, by decide, by decide, by decide⟩, by decide, by decide, ?_⟩
  exact ((run_powerOn_interpreter _ _ [.load [0x60, 0x0A, 0xF0, 0x29], .cycle]).2 0
    ⟨by decide, by decide, by decide, by decide⟩ (by decide)).2 [.tick, .cycle] (by decide)

end Machine

end ChipEight
