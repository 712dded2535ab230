import ChipEight.Framebuffer

/-!
# Sprites on the screen

Drawing flips pixels, and flipping is all it does. So a pixel under many sprites is flipped once for
each of them that reaches it, and what it comes to is a matter of **parity** (`pixel_drawAll`): not of
the order in which they were drawn, nor of what else was drawn between two of them. A sprite drawn
twice is gone.

The report of a collision does depend on what is there. But a pixel that a sprite reaches is on either
before the sprite is drawn or after it, so of two drawings of one sprite in the same place at least
one collides, unless the sprite reaches no pixel at all.

**Main statements**: `pixel_drawAll`, `drawAll_perm`, `put_put` and `collides_either_iff`.
-/

namespace ChipEight

/-- The bytes of a sprite and the place it is drawn at. -/
structure Sprite where
  x : UInt8
  y : UInt8
  bytes : List UInt8
  deriving DecidableEq

/-- Whether a sprite reaches a pixel. -/
def Sprite.covers (s : Sprite) (row column : Nat) : Bool :=
  Framebuffer.covers s.x s.y s.bytes row column

namespace Framebuffer

variable (f : Framebuffer)

/-- Draw a sprite, whatever it collides with. -/
def put (s : Sprite) : Framebuffer := (f.draw s.x s.y s.bytes).1

/-- Draw sprites one after the other. -/
def drawAll (sprites : List Sprite) : Framebuffer := sprites.foldl put f

theorem pixel_put (s : Sprite) (row : Fin 32) (column : Fin 64) :
    (f.put s).pixel row column = (f.pixel row column ^^ s.covers row column) :=
  f.pixel_draw s.x s.y s.bytes row column

theorem drawAll_cons (s : Sprite) (sprites : List Sprite) :
    f.drawAll (s :: sprites) = (f.put s).drawAll sprites := by
  rw [drawAll, List.foldl_cons, drawAll]

@[simp] theorem drawAll_nil : f.drawAll [] = f := rfl

theorem drawAll_append (first second : List Sprite) :
    f.drawAll (first ++ second) = (f.drawAll first).drawAll second :=
  List.foldl_append

/-- One more or one less turns the parity. -/
theorem xor_odd_succ (b : Bool) (n : Nat) :
    (b ^^ decide ((n + 1) % 2 = 1)) = ((b ^^ true) ^^ decide (n % 2 = 1)) := by
  rcases Nat.mod_two_eq_zero_or_one n with h | h
  · rw [h, show (n + 1) % 2 = 1 by omega]
    cases b <;> rfl
  · rw [h, show (n + 1) % 2 = 0 by omega]
    cases b <;> rfl

/-- **A pixel is flipped as often as there are sprites that reach it.** -/
theorem pixel_drawAll (sprites : List Sprite) (row : Fin 32) (column : Fin 64) :
    (f.drawAll sprites).pixel row column =
      (f.pixel row column ^^ decide (sprites.countP (·.covers row column) % 2 = 1)) := by
  induction sprites generalizing f with
  | nil => simp
  | cons s sprites ih =>
    rw [drawAll_cons, ih, pixel_put, List.countP_cons]
    cases s.covers row column with
    | true => rw [if_pos rfl, xor_odd_succ]
    | false => rw [if_neg Bool.false_ne_true, Nat.add_zero, Bool.xor_false]

/-- **The order of the sprites makes no difference.** -/
theorem drawAll_perm {sprites sprites' : List Sprite} (h : sprites.Perm sprites') :
    f.drawAll sprites = f.drawAll sprites' :=
  ext_pixel fun row column ↦ by rw [pixel_drawAll, pixel_drawAll, h.countP_eq]

/-- **A sprite drawn twice is gone.** -/
theorem put_put (s : Sprite) : (f.put s).put s = f :=
  ext_pixel fun row column ↦ by
    rw [pixel_put, pixel_put, Bool.xor_assoc, Bool.xor_self, Bool.xor_false]

/-- Whether drawing a sprite turns a pixel off. -/
def collides (s : Sprite) : Bool := (f.draw s.x s.y s.bytes).2

/-- **Of two drawings of a sprite one collides**, exactly if the sprite reaches the screen. -/
theorem collides_either_iff (s : Sprite) :
    f.collides s = true ∨ (f.put s).collides s = true ↔
      ∃ (row : Fin 32) (column : Fin 64), s.covers row column = true := by
  simp only [collides, draw_collides_iff]
  constructor
  · rintro (⟨row, column, -, hcovers⟩ | ⟨row, column, -, hcovers⟩) <;>
      exact ⟨row, column, hcovers⟩
  · rintro ⟨row, column, hcovers⟩
    rcases hpixel : f.pixel row column with - | -
    · -- The pixel is off before, and so it is on after the first drawing.
      refine .inr ⟨row, column, ?_, hcovers⟩
      rw [pixel_put, hpixel, hcovers]
      rfl
    · exact .inl ⟨row, column, hpixel, hcovers⟩

end Framebuffer

end ChipEight
