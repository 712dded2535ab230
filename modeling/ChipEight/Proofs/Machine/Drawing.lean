import ChipEight.Proofs.Framebuffer.PixelByPixel
import ChipEight.Proofs.Machine.InPlace

/-!
# Sprites, pixel by pixel

Which pixels a sprite turns over, and when it collides, is a matter of arithmetic on positions. The
origin is taken modulo the size of the screen. From there a pixel is so many rows down and so many
columns to the right, and the sprite has a bit for it if it has that row and if the column is one of
eight. The pixel is turned over if that bit is set, and otherwise it stays as it was; a sprite that is
longer than the screen has rows that fall on no pixel.

The same comes of drawing in place, where the loops stop at the edges and each pixel is looked at just
before it is turned over. And it is what `DXYN` does with the bytes at the index register. Both
coordinates are read before the collision is reported, so a sprite may take one of them from the flag.

**Main statement**: `draw_pixel_exact`.
-/

namespace ChipEight

namespace Machine

variable {m : Machine} {x y n : Digit}

/-- A sprite whose bytes are all in memory is drawn, and the collision reported. -/
theorem draw_of_fits (fits : m.index.val + n.val ≤ Memory.size) :
    m.draw x y n = .ok
      { m with
        display := (m.display.draw (m.registers.get x) (m.registers.get y)
          (m.memory.cells m.index.val n.val)).1
        registers := m.registers.setFlag (m.display.draw (m.registers.get x) (m.registers.get y)
          (m.memory.cells m.index.val n.val)).2 } := by
  rw [draw, Memory.slice_eq_ok_iff.2 ⟨fits, rfl⟩]
  rfl

/-- **Drawing is exact to the pixel, and so is its collision.** Let `bit row column` be the bit of the
sprite that falls on a pixel, and false where none does. Drawing, by rows or in place by pixels, turns
over exactly the pixels with a true bit, and collides exactly if one of them was on. A `DXYN` whose
bytes are all in memory does this with the bytes at the index register, at the place that its two
registers give before it; it leaves 1 in the flag if that collides and 0 if not, and changes nothing
else but the program counter. -/
theorem draw_pixel_exact :
    (∀ (f : Framebuffer) (x y : UInt8) (sprite : List UInt8),
      let left := x.toNat % 64
      let top := y.toNat % 32
      let bit := fun row column : Nat ↦
        decide (top ≤ row ∧ row - top < sprite.length ∧ left ≤ column ∧ column - left < 8) &&
          (sprite.getD (row - top) 0).toNat.testBit (7 - (column - left))
      let drawn := f.draw x y sprite
      f.drawPixels x y sprite = some ⟨drawn.1, drawn.2⟩ ∧
        (∀ (row : Fin 32) (column : Fin 64),
          drawn.1.pixel row column = (f.pixel row column ^^ bit row column)) ∧
          (drawn.2 = true ↔ ∃ (row : Fin 32) (column : Fin 64),
            f.pixel row column = true ∧ bit row column = true)) ∧
      ∀ (m : Machine) (x y n : Digit), m.index.val + n.val ≤ 0x1000 →
        let sprite := m.memory.cells m.index.val n.val
        let drawn := m.display.draw (m.registers.get x) (m.registers.get y) sprite
        let after : Machine :=
          { m with
            pc := m.pc + 2
            display := drawn.1
            registers := m.registers.set 0xF (if drawn.2 then 1 else 0) }
        m.stepOver.execute (.draw x y n) = .ok (.displayChanged, after) ∧
          (InPlace.perform (.draw x y n)).on m.stepOver = (.ok .displayChanged, after) ∧
            (m.Executes (.draw x y n) →
              m.cycle.outcome = .ok .displayChanged ∧ m.cycle.machine = after) := by
  constructor
  · intro f x y sprite left top bit drawn
    have hbit (row column : Nat) : bit row column = Framebuffer.covers x y sprite row column := by
      simp only [bit, Framebuffer.covers, Bool.decide_and, Bool.and_assoc]
      rfl
    refine ⟨f.drawPixels_eq x y sprite, fun row column ↦ ?_, ?_⟩
    · rw [hbit]
      exact f.pixel_draw x y sprite row column
    · simp only [hbit]
      exact f.draw_collides_iff x y sprite
  · intro m x y n fits sprite drawn after
    have hexecute : m.stepOver.execute (.draw x y n) = .ok (.displayChanged, after) := by
      rw [execute, m.stepOver.draw_of_fits fits]
      rfl
    refine ⟨hexecute, ?_, fun hop ↦ ?_⟩
    · rw [InPlace.on_perform, hexecute]
      rfl
    · rw [hop.cycle_of_execute hexecute]
      exact ⟨rfl, rfl⟩

/-- A glyph is drawn in the bottom right corner, its column taken from the flag, and drawn there once
more when the flag holds that column again. All of it that is on the screen goes off, and the flag that
gave the column tells of it. -/
theorem glyph_placed_by_flag :
    let m := (powerOn .usual (.ofSeed 0)).run
      [.load [0xA0, 0x50, 0x6F, 0x3E, 0x61, 0x1E, 0xDF, 0x15, 0x6F, 0x3E, 0xDF, 0x15],
        .cycle, .cycle, .cycle, .cycle, .cycle]
    m.index.val + (0x5 : Digit).val ≤ 0x1000 ∧ m.Executes (.draw 0xF 0x1 0x5) ∧
      m.registers.get 0xF = 62 ∧ m.cycle.machine.registers.get 0xF = 1 ∧
        m.cycle.machine.display.pixel 30 62 = false ∧ m.cycle.machine.pc = m.pc + 2 := by
  intro m
  have fits : m.index.val + (0x5 : Digit).val ≤ 0x1000 := by decide
  have hop : m.Executes (.draw 0xF 0x1 0x5) :=
    ⟨by decide, by decide, by decide, by decide⟩
  have hcolumn : m.registers.get 0xF = 62 := by decide
  have hrow : m.registers.get 0x1 = 30 := by decide
  have hsprite : m.memory.cells m.index.val (0x5 : Digit).val = [0xF0, 0x90, 0x90, 0x90, 0xF0] := by
    decide
  have hon : m.display.pixel 30 62 = true := by decide
  obtain ⟨-, hpixel, hcollides⟩ :=
    draw_pixel_exact.1 m.display 62 30 [0xF0, 0x90, 0x90, 0x90, 0xF0]
  obtain ⟨-, -, hcycle⟩ := draw_pixel_exact.2 m 0xF 0x1 0x5 fits
  obtain ⟨-, hmachine⟩ := hcycle hop
  rw [hcolumn, hrow, hsprite, hcollides.2 ⟨30, 62, hon, by decide⟩] at hmachine
  rw [hmachine]
  refine ⟨fits, hop, hcolumn, ?_, ?_, rfl⟩
  · exact (Registers.get_set _ _ _ _).trans (if_pos rfl)
  · exact (hpixel 30 62).trans (by rw [hon]; decide)

end Machine

end ChipEight
