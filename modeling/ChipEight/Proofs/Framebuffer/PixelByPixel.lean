import Mathlib.Data.List.Nodup
import Mathlib.Data.Nat.Bitwise
import ChipEight.Framebuffer

/-!
# Drawing pixel by pixel

The framebuffer draws on whole rows. A screen that is changed **in place** is drawn on by two loops,
over the rows of the sprite and over the columns of a row: wherever the sprite has a bit one pixel is
turned over, and it is remembered whether it was on.

The loops stop at the edges, so every pixel they turn over is on the screen (`inside_of_mem_struck`).
And they come to each pixel at most once (`nodup_struck`), so what they find of it is what was there
before the drawing began. That is why the two ways of drawing agree, on the picture and on the
collision.

**Main statement**: `drawPixels_eq`.
-/

namespace ChipEight

/-- A screen that is being drawn on, and whether a pixel has gone off so far. -/
structure Canvas where
  screen : Framebuffer
  erased : Bool

namespace Framebuffer

/-- Turn over one pixel. -/
def flip (f : Framebuffer) (row : Fin 32) (column : Fin 64) : Framebuffer :=
  ⟨f.rows.setIfInBounds row.val (f.rows.get row ^^^ BitVec.twoPow 64 (63 - column.val))⟩

theorem pixel_flip (f : Framebuffer) (row row' : Fin 32) (column column' : Fin 64) :
    (f.flip row column).pixel row' column' =
      (f.pixel row' column' ^^ decide (row' = row ∧ column' = column)) := by
  have hcolumn : column'.val = 64 - (63 - column.val) - 1 ↔ column' = column := by
    rw [Fin.ext_iff]
    omega
  rw [pixel, pixel, flip, Vector.getElem_setIfInBounds]
  by_cases hrow : row' = row
  · subst hrow
    rw [if_pos rfl, BitVec.getMsbD_xor, BitVec.getMsbD_twoPow, decide_eq_true (by omega),
      Bool.true_and]
    simp only [hcolumn, true_and]
    rfl
  · rw [if_neg fun h ↦ hrow (Fin.ext h.symm), decide_eq_false fun h ↦ hrow h.1, Bool.xor_false]

end Framebuffer

namespace Canvas

/-- Turn over the pixel in a row and a column, if the screen has it. -/
def strike (canvas : Canvas) (place : Nat × Nat) : Option Canvas :=
  if h : place.1 < 32 ∧ place.2 < 64 then
    let row : Fin 32 := ⟨place.1, h.1⟩
    let column : Fin 64 := ⟨place.2, h.2⟩
    some ⟨canvas.screen.flip row column, canvas.erased || canvas.screen.pixel row column⟩
  else none

/-- **Of pixels that are turned over once each** exactly those change, and one has gone off exactly if
one of them was on. -/
theorem exists_foldlM_strike (canvas : Canvas) {places : List (Nat × Nat)}
    (inside : ∀ place ∈ places, place.1 < 32 ∧ place.2 < 64) (once : places.Nodup) :
    ∃ after, places.foldlM strike canvas = some after ∧
      (∀ (row : Fin 32) (column : Fin 64), after.screen.pixel row column =
        (canvas.screen.pixel row column ^^ decide ((row.val, column.val) ∈ places))) ∧
      (after.erased = true ↔ canvas.erased = true ∨
        ∃ (row : Fin 32) (column : Fin 64), canvas.screen.pixel row column = true ∧
          (row.val, column.val) ∈ places) := by
  induction places generalizing canvas with
  | nil => exact ⟨canvas, rfl, by simp, by simp⟩
  | cons place places ih =>
    obtain ⟨hplace, hinside⟩ := List.forall_mem_cons.1 inside
    obtain ⟨hnew, honce⟩ := List.nodup_cons.1 once
    obtain ⟨row, column, rfl⟩ :
        ∃ (row : Fin 32) (column : Fin 64), place = (row.val, column.val) :=
      ⟨⟨_, hplace.1⟩, ⟨_, hplace.2⟩, rfl⟩
    let next : Canvas :=
      ⟨canvas.screen.flip row column, canvas.erased || canvas.screen.pixel row column⟩
    have hstrike : canvas.strike (row.val, column.val) = some next := dif_pos hplace
    have hnext : ∀ row' column', next.screen.pixel row' column' =
        (canvas.screen.pixel row' column' ^^ decide (row' = row ∧ column' = column)) :=
      fun row' column' ↦ canvas.screen.pixel_flip row row' column column'
    have hhere : ∀ (row' : Fin 32) (column' : Fin 64),
        (row'.val, column'.val) = (row.val, column.val) ↔ row' = row ∧ column' = column := by
      intro row' column'
      rw [Prod.mk.injEq, Fin.ext_iff, Fin.ext_iff]
    -- The pixel that was just turned over is not among the others.
    have helse : ∀ (row' : Fin 32) (column' : Fin 64), (row'.val, column'.val) ∈ places →
        ¬ (row' = row ∧ column' = column) :=
      fun row' column' hmem h ↦ hnew ((hhere row' column').2 h ▸ hmem)
    obtain ⟨after, hafter, hpixel, herased⟩ := ih next hinside honce
    refine ⟨after, ?_, fun row' column' ↦ ?_, ?_⟩
    · rw [List.foldlM_cons, hstrike]
      exact hafter
    · rw [hpixel, hnext, Bool.xor_assoc]
      congr 1
      by_cases h : row' = row ∧ column' = column
      · have hother : (row'.val, column'.val) ∉ places := fun hmem ↦ helse _ _ hmem h
        rw [decide_eq_true h, decide_eq_false hother, Bool.xor_false,
          decide_eq_true (List.mem_cons.2 (.inl ((hhere row' column').2 h)))]
      · have hmem : (row'.val, column'.val) ∈ (row.val, column.val) :: places ↔
            (row'.val, column'.val) ∈ places :=
          List.mem_cons.trans (or_iff_right fun heq ↦ h ((hhere row' column').1 heq))
        rw [decide_eq_false h, Bool.false_xor, decide_eq_decide.2 hmem]
    · rw [herased, Bool.or_eq_true, or_assoc]
      refine or_congr_right ⟨?_, ?_⟩
      · rintro (hon | ⟨row', column', hon, hmem⟩)
        · exact ⟨row, column, hon, List.mem_cons_self⟩
        · rw [hnext, decide_eq_false (helse row' column' hmem), Bool.xor_false] at hon
          exact ⟨row', column', hon, List.mem_cons_of_mem _ hmem⟩
      · rintro ⟨row', column', hon, hmem⟩
        rcases List.mem_cons.1 hmem with heq | hmem
        · obtain ⟨rfl, rfl⟩ := (hhere row' column').1 heq
          exact .inl hon
        · refine .inr ⟨row', column', ?_, hmem⟩
          rw [hnext, decide_eq_false (helse row' column' hmem), Bool.xor_false, hon]

end Canvas

namespace Framebuffer

/-- Whether a sprite byte has a bit in a column, counted from the left. -/
def hasBit (b : UInt8) (column : Nat) : Bool := b &&& (0x80 >>> UInt8.ofNat column) != 0

theorem hasBit_eq_testBit (b : UInt8) {column : Nat} (h : column < 8) :
    hasBit b column = b.toNat.testBit (7 - column) := by
  have hmask : ∀ column < 8, ((0x80 : UInt8) >>> UInt8.ofNat column).toNat = 2 ^ (7 - column) := by
    decide
  have hand : (b &&& (0x80 >>> UInt8.ofNat column)).toNat =
      (b.toNat.testBit (7 - column)).toNat * 2 ^ (7 - column) := by
    rw [UInt8.toNat_and, hmask column h, Nat.and_two_pow]
  rw [hasBit, Bool.eq_iff_iff, bne_iff_ne, ne_eq, UInt8.ext_iff, hand, UInt8.toNat_zero, mul_eq_zero]
  cases b.toNat.testBit (7 - column) <;> simp

/-- Draw a sprite on a screen in place, one pixel after the other. There is no result if one of them
is not on the screen. -/
def drawPixels (f : Framebuffer) (x y : UInt8) (sprite : List UInt8) : Option Canvas :=
  let left := x.toNat % width
  let top := y.toNat % height
  (List.range (min sprite.length (height - top))).foldlM (fun canvas row ↦
    (List.range (min 8 (width - left))).foldlM (fun canvas column ↦
      if hasBit (sprite.getD row 0) column then canvas.strike (top + row, left + column)
      else some canvas) canvas) ⟨f, false⟩

/-- The pixels that are turned over, in order. -/
def struck (x y : UInt8) (sprite : List UInt8) : List (Nat × Nat) :=
  let left := x.toNat % width
  let top := y.toNat % height
  (List.range (min sprite.length (height - top))).flatMap fun row ↦
    ((List.range (min 8 (width - left))).filter (hasBit (sprite.getD row 0))).map fun column ↦
      (top + row, left + column)

variable {x y : UInt8} {sprite : List UInt8}

/-- Two loops, one in the other, are one loop over the flattened list. -/
theorem foldlM_flatMap {α β σ : Type} (step : σ → β → Option σ) (g : α → List β) (l : List α)
    (s : σ) : (l.flatMap g).foldlM step s = l.foldlM (fun s a ↦ (g a).foldlM step s) s := by
  induction l generalizing s with
  | nil => rfl
  | cons a l ih =>
    rw [List.flatMap_cons, List.foldlM_append, List.foldlM_cons]
    exact congrArg _ (funext ih)

theorem drawPixels_eq_foldlM (f : Framebuffer) :
    f.drawPixels x y sprite = (struck x y sprite).foldlM Canvas.strike ⟨f, false⟩ := by
  rw [struck, foldlM_flatMap]
  simp only [List.foldlM_map, List.foldlM_filter]
  rfl

/-- The places that are turned over, one by one. -/
theorem mem_struck_iff {place : Nat × Nat} :
    place ∈ struck x y sprite ↔ ∃ row column, row < min sprite.length (height - y.toNat % height) ∧
      column < min 8 (width - x.toNat % width) ∧ hasBit (sprite.getD row 0) column = true ∧
        place = (y.toNat % height + row, x.toNat % width + column) := by
  simp only [struck, List.mem_flatMap, List.mem_map, List.mem_filter, List.mem_range]
  constructor
  · rintro ⟨row, hrow, column, ⟨hcolumn, hbit⟩, rfl⟩
    exact ⟨row, column, hrow, hcolumn, hbit, rfl⟩
  · rintro ⟨row, column, hrow, hcolumn, hbit, rfl⟩
    exact ⟨row, hrow, column, ⟨hcolumn, hbit⟩, rfl⟩

/-- **No pixel is turned over that is not on the screen.** -/
theorem inside_of_mem_struck {place : Nat × Nat} (h : place ∈ struck x y sprite) :
    place.1 < 32 ∧ place.2 < 64 := by
  obtain ⟨row, column, hrow, hcolumn, -, rfl⟩ := mem_struck_iff.1 h
  simp only [height, width] at hrow hcolumn ⊢
  omega

/-- **No pixel is turned over twice.** -/
theorem nodup_struck : (struck x y sprite).Nodup := by
  refine List.nodup_flatMap.2 ⟨fun row _ ↦ ?_, List.nodup_range.imp fun {row row'} hne ↦ ?_⟩
  · refine (List.nodup_range.filter _).map fun column column' heq ↦ ?_
    exact Nat.add_left_cancel (Prod.mk.inj heq).2
  · intro place hplace hplace'
    obtain ⟨column, -, rfl⟩ := List.mem_map.1 hplace
    obtain ⟨column', -, heq⟩ := List.mem_map.1 hplace'
    exact hne (Nat.add_left_cancel (Prod.mk.inj heq).1.symm)

/-- The pixels that are turned over are those that the sprite reaches. -/
theorem mem_struck_iff_covers (row : Fin 32) (column : Fin 64) :
    (row.val, column.val) ∈ struck x y sprite ↔ covers x y sprite row column = true := by
  rw [mem_struck_iff]
  simp only [covers, Bool.and_eq_true, decide_eq_true_eq]
  constructor
  · rintro ⟨row', column', hrow, hcolumn, hbit, heq⟩
    obtain ⟨hrow', hcolumn'⟩ := Prod.mk.inj heq
    rw [hasBit_eq_testBit _ (by omega)] at hbit
    rw [hrow', hcolumn', Nat.add_sub_cancel_left, Nat.add_sub_cancel_left]
    exact ⟨⟨⟨⟨Nat.le_add_right _ _, by omega⟩, Nat.le_add_right _ _⟩, by omega⟩, hbit⟩
  · rintro ⟨⟨⟨⟨htop, hrow⟩, hleft⟩, hcolumn⟩, hbit⟩
    have hheight : row.val < height := row.isLt
    have hwidth : column.val < width := column.isLt
    refine ⟨row - y.toNat % height, column - x.toNat % width, by omega, by omega, ?_, ?_⟩
    · rw [hasBit_eq_testBit _ hcolumn, hbit]
    · rw [Nat.add_sub_cancel' htop, Nat.add_sub_cancel' hleft]

/-- **Drawing pixel by pixel is drawing by rows.** -/
theorem drawPixels_eq (f : Framebuffer) (x y : UInt8) (sprite : List UInt8) :
    f.drawPixels x y sprite = some ⟨(f.draw x y sprite).1, (f.draw x y sprite).2⟩ := by
  obtain ⟨⟨screen, erased⟩, hafter, hpixel, herased⟩ :=
    Canvas.exists_foldlM_strike ⟨f, false⟩ (fun _ ↦ inside_of_mem_struck)
      (nodup_struck (x := x) (y := y))
  have hscreen : screen = (f.draw x y sprite).1 := by
    refine ext_pixel fun row column ↦ ?_
    have hcovers : decide ((row.val, column.val) ∈ struck x y sprite) =
        covers x y sprite row column := by
      rw [Bool.eq_iff_iff, decide_eq_true_iff, mem_struck_iff_covers]
    rw [hpixel, pixel_draw, hcovers]
  have hcollides : erased = (f.draw x y sprite).2 := by
    rw [Bool.eq_iff_iff, herased, draw_collides_iff]
    simp only [Bool.false_eq_true, false_or, mem_struck_iff_covers]
  rw [drawPixels_eq_foldlM, hafter, hscreen, hcollides]

end Framebuffer

end ChipEight
