import ChipEight.RangeError

/-!
# The framebuffer

Sixty-four by thirty-two pixels, each on or off. A row is a word of sixty-four bits with the leftmost
pixel in the highest bit, so that drawing is bitwise: a sprite byte is shifted to its column and
exclusive-ored in, and what the shift drops off the end is exactly what the right edge clips.

**Only the origin wraps.** A sprite starts at `(x % 64, y % 32)` and is cut at the right and bottom
edges; no part of it reappears on the other side.

**Two readings of a sprite.** `draw` works row by row on words. `covers` says of a single pixel
whether a sprite reaches it, by the position of the pixel inside the sprite, and mentions neither
words nor shifts. What drawing does is stated with the second.

**Main statements**: `pixel_draw`, drawing flips the pixels the sprite covers and no others, and
`draw_collides_iff`, it reports a collision when one of those was on.
-/

namespace ChipEight

/-- Thirty-two rows of sixty-four pixels. -/
structure Framebuffer where
  rows : Vector (BitVec 64) 32
  deriving DecidableEq

namespace Framebuffer

/-- The number of columns. -/
def width : Nat := 64

/-- The number of rows. -/
def height : Nat := 32

/-- Every pixel off. -/
def blank : Framebuffer := ⟨Vector.replicate 32 0⟩

variable (f : Framebuffer)

/-- The pixel in a row and a column, counted from the top left. -/
def pixel (row : Fin 32) (column : Fin 64) : Bool :=
  f.rows[row.val].getMsbD column

/-- The pixel in a row and a column, if there are so many. The row is looked at first. -/
def pixel? (row column : Nat) : Except RangeError Bool :=
  if hr : row < 32 then
    if hc : column < 64 then .ok (f.pixel ⟨row, hr⟩ ⟨column, hc⟩)
    else .error (.index width column)
  else .error (.index height row)

/-! ### Drawing -/

/-- A sprite byte with its left end at a column; what passes the right edge is gone. -/
def stripe (column : Nat) (b : UInt8) : BitVec 64 :=
  (b.toBitVec.setWidth 64 <<< 56) >>> column

/-- What a sprite with its top left corner at `(x, y)` puts into one row. -/
def spriteRow (x y : Nat) (sprite : List UInt8) (row : Nat) : BitVec 64 :=
  if y ≤ row then stripe x (sprite.getD (row - y) 0) else 0

/-- Exclusive-or a sprite onto the screen. The flag says whether some pixel was on under it, and so
was turned off. -/
def draw (x y : UInt8) (sprite : List UInt8) : Framebuffer × Bool :=
  let mask := fun row : Fin 32 ↦ spriteRow (x.toNat % width) (y.toNat % height) sprite row
  (⟨Vector.ofFn fun row ↦ f.rows[row.val] ^^^ mask row⟩,
    (List.finRange 32).any fun row ↦ f.rows[row.val] &&& mask row != 0)

/-- Whether a sprite drawn at `(x, y)` has a pixel at the given place: the bit `row - y` down and
`column - x` to the right of its first one, provided there is such a bit. -/
def covers (x y : UInt8) (sprite : List UInt8) (row column : Nat) : Bool :=
  let top := y.toNat % height
  let left := x.toNat % width
  decide (top ≤ row) && decide (row - top < sprite.length) &&
    decide (left ≤ column) && decide (column - left < 8) &&
      (sprite.getD (row - top) 0).toNat.testBit (7 - (column - left))

/-! ### What drawing does -/

theorem getMsbD_stripe (left : Nat) (b : UInt8) (column : Nat) (h : column < 64) :
    (stripe left b).getMsbD column
      = (decide (left ≤ column) && decide (column - left < 8) &&
          b.toNat.testBit (7 - (column - left))) := by
  rw [stripe, BitVec.getMsbD_ushiftRight, BitVec.getMsbD_shiftLeft, BitVec.getMsbD_eq_getLsbD,
    BitVec.getLsbD_setWidth]
  by_cases hl : left ≤ column <;> by_cases h8 : column - left < 8
  · have hb : b.toBitVec.getLsbD (7 - (column - left)) = b.toNat.testBit (7 - (column - left)) :=
      rfl
    rw [← hb, show 64 - 1 - (column - left + 56) = 7 - (column - left) by omega]
    simp [hl, h8, h, show ¬ column < left by omega, show column - left + 56 < 64 by omega,
      show 7 - (column - left) < 64 by omega]
  · simp [h8, show ¬ column - left + 56 < 64 by omega]
  · simp [hl, show column < left by omega]
  · simp [hl, show column < left by omega]

/-- The two readings of a sprite agree on every pixel. -/
theorem getMsbD_spriteRow (x y : UInt8) (sprite : List UInt8) (row column : Nat)
    (h : column < 64) :
    (spriteRow (x.toNat % width) (y.toNat % height) sprite row).getMsbD column
      = covers x y sprite row column := by
  unfold spriteRow covers
  by_cases hy : y.toNat % height ≤ row
  · rw [if_pos hy, getMsbD_stripe _ _ _ h]
    by_cases hn : row - y.toNat % height < sprite.length
    · simp [hy, hn, Bool.and_assoc]
    · simp [hy, hn, List.getD]
  · simp [hy]

/-- **Drawing flips exactly the pixels the sprite reaches.** -/
theorem pixel_draw (x y : UInt8) (sprite : List UInt8) (row : Fin 32) (column : Fin 64) :
    (f.draw x y sprite).1.pixel row column
      = (f.pixel row column ^^ covers x y sprite row column) := by
  simp [draw, pixel, ← getMsbD_spriteRow x y sprite row column column.isLt]

/-- Two rows have a pixel in common exactly when their conjunction is not empty. -/
theorem and_ne_zero_iff (v w : BitVec 64) :
    v &&& w ≠ 0 ↔ ∃ column : Fin 64, v.getMsbD column = true ∧ w.getMsbD column = true := by
  constructor
  · intro h
    refine Classical.byContradiction fun none ↦ h (BitVec.eq_of_getMsbD_eq fun i hi ↦ ?_)
    rw [BitVec.getMsbD_and]
    cases hv : v.getMsbD i <;> cases hw : w.getMsbD i <;> simp
    exact none ⟨⟨i, hi⟩, hv, hw⟩
  · rintro ⟨column, hv, hw⟩ h
    have := congrArg (BitVec.getMsbD · column.val) h
    simp [hv, hw] at this

/-- **A collision is a pixel that was on and is reached by the sprite.** -/
theorem draw_collides_iff (x y : UInt8) (sprite : List UInt8) :
    (f.draw x y sprite).2 = true ↔
      ∃ row column, f.pixel row column = true ∧ covers x y sprite row column = true := by
  simp only [draw, pixel, List.any_eq_true, bne_iff_ne, List.mem_finRange, true_and,
    and_ne_zero_iff]
  refine exists_congr fun row ↦ exists_congr fun column ↦ ?_
  rw [getMsbD_spriteRow x y sprite row column column.isLt]

@[simp] theorem pixel_blank (row : Fin 32) (column : Fin 64) : blank.pixel row column = false := by
  simp [blank, pixel]

/-- Framebuffers with the same pixels are the same framebuffer. -/
theorem ext_pixel {f g : Framebuffer} (h : ∀ row column, f.pixel row column = g.pixel row column) :
    f = g := by
  cases f; cases g
  congr 1
  exact Vector.ext fun row hr ↦ BitVec.eq_of_getMsbD_eq fun column hc ↦ h ⟨row, hr⟩ ⟨column, hc⟩

/-! ### Text -/

/-- A pixel as a character. -/
def glyph (on : Bool) : Char := if on then '#' else '.'

/-- One row as text, ended by a line feed. -/
def rowText (row : Fin 32) : List Char :=
  (List.finRange 64).map (fun column ↦ glyph (f.pixel row column)) ++ ['\n']

/-- The whole screen as text, from the top row down. -/
def text : String :=
  String.ofList ((List.finRange 32).flatMap f.rowText)

end Framebuffer

end ChipEight
