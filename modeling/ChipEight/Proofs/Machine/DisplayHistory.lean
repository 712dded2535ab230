import ChipEight.Proofs.Framebuffer.PixelByPixel
import ChipEight.Proofs.Framebuffer.Sprites
import ChipEight.Proofs.Machine.Footprint

/-!
# What the display shows

Two instructions write the display: `00E0` turns every pixel off, and `DXYN` draws the sprite at the
index register. What there is to see at the end of a history is therefore a blank display, or the one
at the start if it was never cleared, with the sprites on it that were drawn **since it was last
cleared** (`display_run`). Which pixels those leave on is a matter of parity alone.

A sprite is drawn with the bytes that memory holds at that moment. Its origin is taken modulo the size
of the screen, and it reaches a pixel exactly if the pixel lies inside its eight columns and its `n`
rows, counted from there to the right and down, and the bit for that place is set (`Moment.Covers`).
Nothing reappears on the other side.

**Main statement**: `run_display`.
-/

namespace ChipEight

/-- A sprite that is read from memory reaches the pixels for which the bit in memory is set. -/
theorem Memory.covers_cells (m : Memory) (a n : Nat) (x y : UInt8) (row column : Nat) :
    Framebuffer.covers x y (m.cells a n) row column = true ↔
      (y.toNat % 32 ≤ row ∧ row - y.toNat % 32 < n) ∧
        (x.toNat % 64 ≤ column ∧ column - x.toNat % 64 < 8) ∧
          (m.cell (a + (row - y.toNat % 32))).toNat.testBit (7 - (column - x.toNat % 64)) = true := by
  have hbyte : row - y.toNat % 32 < n →
      (m.cells a n).getD (row - y.toNat % 32) 0 = m.cell (a + (row - y.toNat % 32)) := by
    intro hrow
    rw [List.getD_eq_getElem?_getD, getElem?_cells, if_pos hrow]
    rfl
  simp only [Framebuffer.covers, Bool.and_eq_true, decide_eq_true_eq, length_cells]
  simp only [Framebuffer.height, Framebuffer.width]
  constructor
  · rintro ⟨⟨⟨⟨htop, hrow⟩, hleft⟩, hcolumn⟩, hbit⟩
    rw [hbyte hrow] at hbit
    exact ⟨⟨htop, hrow⟩, ⟨hleft, hcolumn⟩, hbit⟩
  · rintro ⟨⟨htop, hrow⟩, ⟨hleft, hcolumn⟩, hbit⟩
    rw [← hbyte hrow] at hbit
    exact ⟨⟨⟨⟨htop, hrow⟩, hleft⟩, hcolumn⟩, hbit⟩

namespace Moment

variable {t : Moment}

/-- Whether the display is cleared at a moment. -/
def clears (t : Moment) : Bool := t.carried? == some .clearScreen

/-- The sprite that is drawn at a moment, if one is. -/
def sprite? (t : Moment) : Option Sprite :=
  match t.carried? with
  | some (.draw x y n) =>
    let m := t.machine
    some ⟨m.registers.get x, m.registers.get y, m.memory.cells m.index.val n.val⟩
  | _ => none

/-- A sprite is drawn at a moment, and it reaches a pixel. -/
def Covers (t : Moment) (row column : Nat) : Prop :=
  ∃ x y n, t.carried? = some (.draw x y n) ∧
    let m := t.machine
    let top := (m.registers.get y).toNat % 32
    let left := (m.registers.get x).toNat % 64
    (top ≤ row ∧ row - top < n.val) ∧ (left ≤ column ∧ column - left < 8) ∧
      (m.memory.cell (m.index.val + (row - top))).toNat.testBit (7 - (column - left)) = true

/-- The display is cleared where a `00E0` is set about. -/
theorem clears_iff : t.clears = true ↔ t.Executes .clearScreen := by
  rw [clears, beq_iff_eq, carried?_eq_some_iff]
  refine and_iff_left_of_imp fun h ↦ ?_
  obtain ⟨m, event⟩ := t
  obtain ⟨rfl, hop⟩ := h
  exact (carried?_eq_some_iff.1 (carried_of_execute hop rfl)).2

/-- A sprite reaches the pixels that its moment says. -/
theorem covers_iff {row column : Nat} :
    t.sprite?.any (·.covers row column) = true ↔ t.Covers row column := by
  rw [sprite?]
  split
  · rename_i x y n hop
    show Framebuffer.covers _ _ _ row column = true ↔ _
    rw [Memory.covers_cells]
    constructor
    · intro h
      exact ⟨x, y, n, hop, h⟩
    · rintro ⟨x', y', n', hop', h⟩
      obtain ⟨rfl, rfl, rfl⟩ := Opcode.draw.inj (Option.some.inj (hop.symm.trans hop'))
      exact h
  · rename_i hop
    refine ⟨fun h ↦ absurd h Bool.false_ne_true, fun h ↦ ?_⟩
    obtain ⟨x, y, n, hdraw, -⟩ := h
    exact absurd hdraw (hop x y n)

/-- A display is not cleared and drawn on at one moment. -/
theorem sprite?_of_clears (h : t.clears = true) : t.sprite? = none := by
  rw [clears, beq_iff_eq] at h
  rw [sprite?, h]

instance (t : Moment) (row column : Nat) : Decidable (t.Covers row column) :=
  decidable_of_iff _ covers_iff

/-- **What one moment does to the display**, unless it starts everything again. -/
theorem display_after (hrestart : ¬ t.event.restarts) :
    t.after.display =
      (if t.clears then Framebuffer.blank else t.machine.display).drawAll t.sprite?.toList := by
  rcases hcarried : t.carried? with - | op
  · obtain ⟨_, _, _, _, _, hafter⟩ := after_of_not_carried hcarried hrestart
    rw [hafter, clears, sprite?, hcarried]
    rfl
  · obtain ⟨hdisplay, -, -⟩ := outputs_of_carried hcarried
    rw [hdisplay, clears, sprite?, hcarried]
    cases op <;> rfl

end Moment

namespace Machine

variable {m : Machine}

/-- The sprites drawn since the display was last cleared. -/
def sprites (m : Machine) (events : List Event) : List Sprite :=
  (since Moment.clears (m.moments events)).filterMap Moment.sprite?

/-- The display that the sprites are drawn on. -/
def backdrop (m : Machine) (events : List Event) : Framebuffer :=
  if (m.moments events).any Moment.clears then .blank else m.display

theorem backdrop_concat (m : Machine) (events : List Event) (event : Event) :
    m.backdrop (events ++ [event]) =
      if Moment.clears ⟨m.run events, event⟩ then .blank else m.backdrop events := by
  rw [backdrop, moments_append, moments_cons, moments_nil, List.any_append, List.any_cons,
    List.any_nil, Bool.or_false]
  cases Moment.clears ⟨m.run events, event⟩ with
  | true => rw [Bool.or_true, if_pos rfl, if_pos rfl]
  | false => rw [Bool.or_false, if_neg Bool.false_ne_true, backdrop]

theorem sprites_concat (m : Machine) (events : List Event) (event : Event) :
    m.sprites (events ++ [event]) =
      if Moment.clears ⟨m.run events, event⟩ then []
      else m.sprites events ++ (Moment.sprite? ⟨m.run events, event⟩).toList := by
  rw [sprites, moments_append, moments_cons, moments_nil, since_concat]
  split
  · rfl
  · rw [List.filterMap_append, List.filterMap_cons, List.filterMap_nil, ← sprites]
    cases Moment.sprite? ⟨m.run events, event⟩ <;> rfl

/-- **The display shows the sprites drawn since it was last cleared.** -/
theorem display_run (m : Machine) {events : List Event}
    (h : ∀ event ∈ events, ¬ event.restarts) :
    (m.run events).display = (m.backdrop events).drawAll (m.sprites events) := by
  induction events using List.reverseRecOn with
  | nil => rfl
  | append_singleton events event ih =>
    rw [List.forall_mem_append] at h
    have hrestart : ¬ event.restarts := h.2 event List.mem_cons_self
    have hrun : m.run (events ++ [event]) = Moment.after ⟨m.run events, event⟩ := run_append m _ _
    rw [hrun, Moment.display_after hrestart, backdrop_concat, sprites_concat]
    by_cases hclears : Moment.clears ⟨m.run events, event⟩ = true
    · rw [if_pos hclears, if_pos hclears, if_pos hclears, Moment.sprite?_of_clears hclears]
      rfl
    · rw [if_neg hclears, if_neg hclears, if_neg hclears, ih h.1, Framebuffer.drawAll_append]

/-- The sprites that reach a pixel are those of the moments that cover it. -/
theorem countP_sprites (m : Machine) (events : List Event) (row column : Nat) :
    (m.sprites events).countP (·.covers row column) =
      (since Moment.clears (m.moments events)).countP fun t ↦ t.Covers row column := by
  rw [sprites, List.countP_filterMap]
  refine List.countP_congr fun t _ ↦ ?_
  rw [decide_eq_true_iff, ← Moment.covers_iff]
  cases t.sprite? <;> rfl

/-- **The history of the framebuffer.** From any machine and for any history that does not restart it, a
pixel is what it was at the start, or off if the display was cleared, turned over once for each sprite
that was drawn since it was last cleared and reaches it. Hence sprites may be drawn in any order; a
sprite drawn twice in one place leaves the display as it was; and one of the two drawings reports a
collision exactly if the sprite reaches a pixel of the screen. To draw in place, pixel by pixel, makes
no difference. -/
theorem run_display (m : Machine) (events : List Event) (row : Fin 32) (column : Fin 64) :
    ((∀ event ∈ events, ¬ event.restarts) →
      let cleared := ∃ t ∈ m.moments events, t.Executes .clearScreen
      let base := if cleared then false else m.display.pixel row column
      let drawn := (since Moment.clears (m.moments events)).countP fun t ↦ t.Covers row column
      (m.run events).display.pixel row column = (base ^^ decide (drawn % 2 = 1))) ∧
      ∀ f : Framebuffer,
        (∀ sprites sprites' : List Sprite, sprites.Perm sprites' →
          f.drawAll sprites = f.drawAll sprites') ∧
          ∀ s : Sprite, f.drawPixels s.x s.y s.bytes = some ⟨f.put s, f.collides s⟩ ∧
            (f.put s).put s = f ∧
              (f.collides s = true ∨ (f.put s).collides s = true ↔
                ∃ (row : Fin 32) (column : Fin 64), s.covers row column = true) := by
  refine ⟨?_, fun f ↦ ⟨fun _ _ ↦ f.drawAll_perm, fun s ↦
    ⟨f.drawPixels_eq s.x s.y s.bytes, f.put_put s, f.collides_either_iff s⟩⟩⟩
  intro h cleared base drawn
  have hcleared : (m.moments events).any Moment.clears = true ↔ cleared := by
    simp only [List.any_eq_true, Moment.clears_iff]
    rfl
  have hbase : (m.backdrop events).pixel row column = base := by
    by_cases hc : cleared
    · rw [backdrop, if_pos (hcleared.2 hc), Framebuffer.pixel_blank, show base = false from if_pos hc]
    · rw [backdrop, if_neg fun hany ↦ hc (hcleared.1 hany),
        show base = m.display.pixel row column from if_neg hc]
  rw [display_run m h, Framebuffer.pixel_drawAll, countP_sprites, hbase]

/-- A glyph is drawn, the screen cleared and the glyph drawn twice in the bottom right corner, most of
it behind the edges, the second time one row lower. A pixel that both drawings reach is off again, and
the one above it is on. The same two drawings make the same picture the other way round. -/
theorem glyphs_overlap_in_corner :
    let m := (powerOn .usual (.ofSeed 0)).run
      [.load [0xA0, 0x50, 0x61, 0x3E, 0x62, 0x1D, 0xD0, 0x05, 0x00, 0xE0, 0xD1, 0x25, 0x72, 0x01,
        0xD1, 0x25], .cycle, .cycle, .cycle]
    let events : List Event := [.cycle, .cycle, .tick, .cycle, .cycle, .cycle]
    let upper : Sprite := ⟨62, 29, [0xF0, 0x90, 0x90, 0x90, 0xF0]⟩
    let lower : Sprite := ⟨62, 30, [0xF0, 0x90, 0x90, 0x90, 0xF0]⟩
    (∀ event ∈ events, ¬ event.restarts) ∧ (m.run events).display.pixel 29 62 = true ∧
      (m.run events).display.pixel 30 62 = false ∧ [upper, lower].Perm [lower, upper] ∧
        Framebuffer.blank.drawAll [upper, lower] = Framebuffer.blank.drawAll [lower, upper] := by
  intro m events upper lower
  have hstill : ∀ event ∈ events, ¬ event.restarts := by decide
  have hswap : [upper, lower].Perm [lower, upper] := .swap lower upper []
  have habove := (run_display m events 29 62).1 hstill
  have hunder := (run_display m events 30 62).1 hstill
  obtain ⟨horder, -⟩ := (run_display m events 0 0).2 Framebuffer.blank
  exact ⟨hstill, habove.trans (by decide), hunder.trans (by decide), hswap, horder _ _ hswap⟩

end Machine

end ChipEight
