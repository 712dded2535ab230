import ChipEight.Opcode.Encoding
import ChipEight.Machine.Execute
import ChipEight.Proofs.Framebuffer.PixelByPixel

/-!
# Operations that may have no result

Numbers in storage have a width, arrays a length and digits four bits. An operation that leaves these
bounds has no result: a sum that is too large, a difference below zero, a shift by the whole width, an
index past the end, a value that is no digit, bytes copied to a range of another length. Here such an
operation is a **trap**, and whatever is done with it ends there.

What is computed in this way is computed from bare numbers, and every operation says what it needs. A
computation is free of traps if it comes to `.ok` of what it should. So are the decoding of a word by
cutting out its digits (`decode_eq`), the keypad that finds the smallest key by counting zeros
(`takePress_eq`), and a sprite that is drawn by two loops over rows and columns (`drawSprite_eq`). The
last rests on `Framebuffer.drawPixels_eq`: the loops that stop at the edges never leave the screen.
-/

namespace ChipEight

/-- Why an operation has no result. -/
inductive Trap where
  /-- A value, an index or the end of a range is out of range. -/
  | range (error : RangeError)
  /-- A number does not fit its width, or a shift is as wide as what is shifted. -/
  | overflow
  /-- There is nothing to divide by. -/
  | zeroDivisor
  /-- Bytes were to be copied to a range of another length. -/
  | lengths (room size : Nat)
  deriving DecidableEq, Repr

/-- The result of an operation that may have none. -/
abbrev Checked := Except Trap

namespace Checked

variable {α β : Type}

/-! ### Numbers -/

/-- The numbers that an address or a length can be are below this. -/
def addressLimit : Nat := 0x10000000000000000

/-- A sum, for a width of numbers below a limit. -/
def plus (limit a b : Nat) : Checked Nat := if a + b < limit then .ok (a + b) else .error .overflow

/-- A product, for a width of numbers below a limit. -/
def times (limit a b : Nat) : Checked Nat := if a * b < limit then .ok (a * b) else .error .overflow

/-- A difference. -/
def minus (a b : Nat) : Checked Nat := if b ≤ a then .ok (a - b) else .error .overflow

/-- A remainder. -/
def remainder (a b : Nat) : Checked Nat := if b ≠ 0 then .ok (a % b) else .error .zeroDivisor

/-- A quotient. -/
def quotient (a b : Nat) : Checked Nat := if b ≠ 0 then .ok (a / b) else .error .zeroDivisor

/-- The number of places that something of some width may be shifted by. -/
def places (width n : Nat) : Checked Nat := if n < width then .ok n else .error .overflow

theorem plus_eq {limit a b : Nat} (h : a + b < limit) : plus limit a b = .ok (a + b) := if_pos h

theorem times_eq {limit a b : Nat} (h : a * b < limit) : times limit a b = .ok (a * b) := if_pos h

theorem minus_eq {a b : Nat} (h : b ≤ a) : minus a b = .ok (a - b) := if_pos h

theorem places_eq {width n : Nat} (h : n < width) : places width n = .ok n := if_pos h

/-! ### Indices and ranges -/

/-- A question that was asked within the bounds. -/
def ranged : Except RangeError α → Checked α
  | .ok a => .ok a
  | .error error => .error (.range error)

/-- The value of a digit, if it is one. -/
def digit (n : Nat) : Checked Digit := ranged (Digit.ofNat? n)

/-- An index into something of some size. -/
def index (size i : Nat) : Checked (Fin size) :=
  if h : i < size then .ok ⟨i, h⟩ else .error (.range (.index size i))

/-- The end of a range in something of some size. -/
def rangeEnd (size stop : Nat) : Checked Nat :=
  if stop ≤ size then .ok stop else .error (.range (.range size stop))

/-- Bytes to be copied to a range with room for so many. -/
def copied (room : Nat) (bytes : List UInt8) : Checked (List UInt8) :=
  if bytes.length = room then .ok bytes else .error (.lengths room bytes.length)

theorem digit_eq {n : Nat} {d : Digit} (h : n = d.val) : digit n = .ok d := by
  rw [digit, Digit.ofNat?_eq_ok_iff.2 h]
  rfl

theorem index_eq {size : Nat} (i : Fin size) : index size i.val = .ok i := dif_pos i.isLt

theorem rangeEnd_eq {size stop : Nat} (h : stop ≤ size) : rangeEnd size stop = .ok stop := if_pos h

theorem copied_eq {room : Nat} {bytes : List UInt8} (h : bytes.length = room) :
    copied room bytes = .ok bytes := if_pos h

theorem bind_ok (a : α) (f : α → Checked β) : ((.ok a : Checked α) >>= f) = f a := rfl

/-! ### Bytes -/

/-- A sum that is cut down to a byte is the sum of the bytes. -/
theorem ofNat_sum_and (a b : UInt8) : UInt8.ofNat (a.toNat + b.toNat &&& 0xFF) = a + b := by
  refine UInt8.toNat_inj.1 ?_
  rw [show a.toNat + b.toNat &&& 0xFF = (a.toNat + b.toNat) % 256 from
    Nat.and_two_pow_sub_one_eq_mod _ 8, UInt8.toNat_add, UInt8.toNat_ofNat', Nat.mod_mod]

/-- The last bit of a byte. -/
theorem and_one_eq (a : UInt8) : a &&& 1 = if decide (a.toNat % 2 = 1) then 1 else 0 := by
  have hand : (a &&& 1).toNat = a.toNat % 2 := by
    rw [UInt8.toNat_and]
    exact Nat.and_two_pow_sub_one_eq_mod _ 1
  refine UInt8.toNat_inj.1 (hand.trans ?_)
  rcases Nat.mod_two_eq_zero_or_one a.toNat with h | h <;> rw [h] <;> rfl

/-- The first bit of a byte. -/
theorem shiftRight_seven_and_one_eq (a : UInt8) :
    a >>> 7 &&& 1 = if decide (128 ≤ a.toNat) then 1 else 0 := by
  have ha := a.toNat_lt
  have hshift : (a >>> 7).toNat = a.toNat / 128 := by
    rw [UInt8.toNat_shiftRight]
    exact Nat.shiftRight_eq_div_pow _ 7
  rw [and_one_eq, hshift, decide_eq_decide.2 (show a.toNat / 128 % 2 = 1 ↔ 128 ≤ a.toNat by omega)]

/-- The address of the glyph for a byte. -/
def glyphAddress (digit : UInt8) : Checked Nat := do
  plus addressLimit Memory.fontStart (← times addressLimit Font.glyphSize digit.toNat)

theorem glyphAddress_eq (digit : UInt8) : glyphAddress digit = .ok (Memory.glyphAddress digit) := by
  have hdigit := digit.toNat_lt
  have hproduct : Font.glyphSize * digit.toNat < addressLimit := by
    rw [Font.glyphSize, addressLimit]
    omega
  have hsum : Memory.fontStart + Font.glyphSize * digit.toNat < addressLimit := by
    rw [Memory.fontStart, Font.glyphSize, addressLimit]
    omega
  rw [glyphAddress, times_eq hproduct, bind_ok, plus_eq hsum]
  rfl

/-- The three decimal digits of a byte. -/
def decimalDigits (value : UInt8) : Checked (List UInt8) := do
  let hundreds ← quotient value.toNat 100
  let tens ← remainder (← quotient value.toNat 10) 10
  let ones ← remainder value.toNat 10
  return [hundreds, tens, ones].map UInt8.ofNat

theorem decimalDigits_eq (value : UInt8) :
    decimalDigits value = .ok (Machine.decimalDigits value) := by
  have hhundreds : value.toNat / 100 = (value / 100).toNat := (UInt8.toNat_div value 100).symm
  have htens : value.toNat / 10 % 10 = (value / 10 % 10).toNat := by
    rw [UInt8.toNat_mod, UInt8.toNat_div]
    rfl
  have hones : value.toNat % 10 = (value % 10).toNat := (UInt8.toNat_mod value 10).symm
  show Except.ok ([value.toNat / 100, value.toNat / 10 % 10, value.toNat % 10].map UInt8.ofNat) = _
  simp only [hhundreds, htens, hones, List.map_cons, List.map_nil, UInt8.ofNat_toNat,
    Machine.decimalDigits]

/-! ### The digits of a word -/

/-- The four digits of a word, each cut out and moved down. -/
def digits (w : Word) : Checked (Digit × Digit × Digit × Digit) := do
  let kind := Digit.low ((w &&& 0xF000) >>> 12).toUInt8.toNat
  let x ← digit ((w &&& 0x0F00) >>> 8).toUInt8.toNat
  let y ← digit ((w &&& 0x00F0) >>> 4).toUInt8.toNat
  let n ← digit (w &&& 0x000F).toUInt8.toNat
  return (kind, x, y, n)

/-- The instruction a word reads as, by its digits. -/
def decode (w : Word) : Checked (Option Opcode) := do
  let (kind, x, y, n) ← digits w
  return Opcode.decode? (.ofDigits kind x y n)

/-- Four bits that are cut out of a word and moved down are the remainder of a quotient. -/
theorem cut_eq (n k : Nat) : (n &&& 15 <<< k) >>> k % 256 = n / 2 ^ k % 16 := by
  have hlow : (n &&& 15 <<< k) >>> k = n / 2 ^ k % 16 := by
    rw [Nat.shiftRight_and_distrib, Nat.shiftLeft_shiftRight, Nat.shiftRight_eq_div_pow]
    exact Nat.and_two_pow_sub_one_eq_mod _ 4
  omega

theorem digits_eq (w : Word) : digits w = .ok (w.kind, w.x, w.y, w.n) := by
  have hkind : .low ((w &&& 0xF000) >>> 12).toUInt8.toNat = w.kind := by
    have hw := w.toNat_lt
    have hcut : ((w &&& 0xF000) >>> 12).toUInt8.toNat = w.toNat / 4096 % 16 := cut_eq w.toNat 12
    rw [Fin.ext_iff, Digit.low_val, hcut]
    show _ = w.toNat / 4096
    omega
  have hx : digit ((w &&& 0x0F00) >>> 8).toUInt8.toNat = .ok w.x := digit_eq (cut_eq w.toNat 8)
  have hy : digit ((w &&& 0x00F0) >>> 4).toUInt8.toNat = .ok w.y := digit_eq (cut_eq w.toNat 4)
  have hn : digit (w &&& 0x000F).toUInt8.toNat = .ok w.n :=
    digit_eq ((cut_eq w.toNat 0).trans (by rw [Nat.pow_zero, Nat.div_one]; rfl))
  rw [digits, hkind, hx, hy, hn]
  rfl

/-- **A word is decoded without a trap**: no digit cut out of it is too large. -/
theorem decode_eq (w : Word) : decode w = .ok (Opcode.decode? w) := by
  rw [decode, digits_eq]
  show Except.ok (Opcode.decode? (.ofDigits w.kind w.x w.y w.n)) = _
  rw [w.ofDigits_fields]

/-! ### The keypad -/

/-- The number of zeros behind the last one of a word of sixteen bits. -/
def trailingZeros (mask : BitVec 16) : Nat := (List.range 16).findIdx mask.getLsbD

/-- Take the smallest latched press, found by counting zeros. -/
def takePress (p : Keypad) : Checked (Option (Digit × Keypad)) := do
  if p.latched.mask = 0 then return none
  let key := trailingZeros p.latched.mask
  let bit := 1#16 <<< (← places 16 key)
  return some (← digit key, { p with latched := ⟨p.latched.mask &&& ~~~bit⟩ })

/-- Press or release a key. -/
def setKey (p : Keypad) (k : Digit) (down : Bool) : Checked Keypad := do
  let held := p.held.has (← index 16 k.val)
  let latched ←
    if down && !held then do
      let bit := 1#16 <<< (← places 16 k.val)
      pure ⟨p.latched.mask ||| bit⟩
    else pure p.latched
  let i ← index 16 k.val
  return { held := if down then p.held.insert i else p.held.erase i, latched }

/-- **The zeros behind the smallest key are as many as its digit says**, so they are one. -/
theorem trailingZeros_of_least? {s : KeySet} {k : Digit} (h : s.least? = some k) :
    trailingZeros s.mask = k.val := by
  obtain ⟨hhas, hbelow⟩ := s.least?_eq_some_iff.1 h
  rw [trailingZeros, List.findIdx_eq (by rw [List.length_range]; exact k.isLt)]
  simp only [List.getElem_range]
  exact ⟨hhas, fun j hj ↦ hbelow ⟨j, hj.trans k.isLt⟩ hj⟩

theorem least?_eq_none_iff_mask {s : KeySet} : s.least? = none ↔ s.mask = 0 := by
  rw [KeySet.least?_eq_none_iff]
  constructor
  · exact fun h ↦ BitVec.eq_of_getLsbD_eq fun i hi ↦ (h ⟨i, hi⟩).trans BitVec.getLsbD_zero.symm
  · intro h k
    rw [KeySet.has, h]
    exact BitVec.getLsbD_zero

theorem takePress_eq (p : Keypad) : takePress p = .ok p.takePress := by
  cases h : p.latched.least? with
  | none =>
    rw [takePress, if_pos (least?_eq_none_iff_mask.1 h), Keypad.takePress, h]
    rfl
  | some k =>
    have hmask : p.latched.mask ≠ 0 := fun hzero ↦ by
      rw [least?_eq_none_iff_mask.2 hzero] at h
      cases h
    rw [takePress, if_neg hmask, trailingZeros_of_least? h, Keypad.takePress, h]
    simp only [places_eq k.isLt, digit_eq rfl, bind_ok, Option.map_some, KeySet.erase,
      BitVec.twoPow_eq]
    rfl

theorem setKey_eq (p : Keypad) (k : Digit) (down : Bool) : setKey p k down = .ok (p.set k down) := by
  rw [setKey, index_eq, places_eq k.isLt, Keypad.set, Keypad.isHeld, KeySet.insert, BitVec.twoPow_eq]
  simp only [bind_ok]
  by_cases h : (down && !p.held.has k) = true
  · rw [if_pos h, if_pos h]
    rfl
  · rw [if_neg h, if_neg h]
    rfl

/-! ### Sprites -/

/-- Turn over the pixel in a row and a column. -/
def strike (canvas : Canvas) (row column : Nat) : Checked Canvas := do
  let row ← index 32 row
  let column ← index 64 column
  return ⟨canvas.screen.flip row column, canvas.erased || canvas.screen.pixel row column⟩

/-- Draw a sprite, one pixel after the other. -/
def drawSprite (f : Framebuffer) (x y : UInt8) (sprite : List UInt8) : Checked Canvas := do
  let left ← remainder x.toNat Framebuffer.width
  let top ← remainder y.toNat Framebuffer.height
  let rows := min sprite.length (← minus Framebuffer.height top)
  let columns := min 8 (← minus Framebuffer.width left)
  (List.range rows).foldlM (fun canvas row ↦
    (List.range columns).foldlM (fun canvas column ↦ do
      if sprite.getD row 0 &&& (0x80 >>> UInt8.ofNat (← places 8 column)) != 0 then
        strike canvas (← plus addressLimit top row) (← plus addressLimit left column)
      else return canvas) canvas) ⟨f, false⟩

/-- A fold that has a result has the same one if each of its steps may also be made in another way. -/
theorem foldlM_eq_ok {σ : Type} {step : σ → β → Option σ} {step' : σ → β → Checked σ} {l : List β}
    (h : ∀ b ∈ l, ∀ s s', step s b = some s' → step' s b = .ok s') {s s' : σ}
    (hfold : l.foldlM step s = some s') : l.foldlM step' s = .ok s' := by
  induction l generalizing s with
  | nil =>
    obtain rfl := Option.some.inj hfold
    rfl
  | cons b l ih =>
    obtain ⟨hb, hl⟩ := List.forall_mem_cons.1 h
    rw [List.foldlM_cons] at hfold
    obtain ⟨next, hstep, hrest⟩ := Option.bind_eq_some_iff.1 hfold
    rw [List.foldlM_cons, hb s next hstep]
    exact ih hl hrest

theorem strike_eq {canvas after : Canvas} {row column : Nat}
    (h : canvas.strike (row, column) = some after) : strike canvas row column = .ok after := by
  unfold Canvas.strike at h
  split at h
  · rename_i inside
    obtain rfl := Option.some.inj h
    rw [strike, index, dif_pos inside.1, index, dif_pos inside.2]
    rfl
  · cases h

/-- **A sprite is drawn without a trap**: each pixel it turns over is on the screen. -/
theorem drawSprite_eq (f : Framebuffer) (x y : UInt8) (sprite : List UInt8) :
    drawSprite f x y sprite = .ok ⟨(f.draw x y sprite).1, (f.draw x y sprite).2⟩ := by
  have hleft : x.toNat % Framebuffer.width < Framebuffer.width := Nat.mod_lt _ (by decide)
  have htop : y.toNat % Framebuffer.height < Framebuffer.height := Nat.mod_lt _ (by decide)
  have hwidth : Framebuffer.width = 64 := rfl
  have hheight : Framebuffer.height = 32 := rfl
  rw [drawSprite, remainder, if_pos (by decide), remainder, if_pos (by decide)]
  simp only [bind_ok, minus_eq hleft.le, minus_eq htop.le]
  refine foldlM_eq_ok (fun row hrow canvas after hrows ↦ ?_) (f.drawPixels_eq x y sprite)
  refine foldlM_eq_ok (fun column hcolumn canvas after hstep ↦ ?_) hrows
  have hrow := List.mem_range.1 hrow
  have hcolumn := List.mem_range.1 hcolumn
  rw [places_eq (by omega), plus_eq (by rw [addressLimit]; omega),
    plus_eq (by rw [addressLimit]; omega)]
  simp only [bind_ok]
  split at hstep
  · rename_i hbit
    rw [Framebuffer.hasBit] at hbit
    rw [if_pos hbit]
    exact strike_eq hstep
  · rename_i hbit
    rw [Framebuffer.hasBit] at hbit
    obtain rfl := Option.some.inj hstep
    rw [if_neg hbit]
    rfl

/-- Outside the screen there is nothing to turn over. -/
example : strike ⟨.blank, false⟩ 32 64 = .error (.range (.index 32 32)) := rfl

end Checked

end ChipEight
