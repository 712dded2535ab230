import ChipEight.Digit

/-!
# Registers

Sixteen bytes, named by a hexadecimal digit. The last of them is the **flag**: arithmetic and drawing
report a carry, a borrow, a bit shifted out or a collision there, and they report it last, so that a
program which uses the flag as an ordinary register finds the report and not the result.

The view of a register file is `get`.
-/

namespace ChipEight

/-- The sixteen registers. -/
structure Registers where
  bytes : Vector UInt8 16
  deriving DecidableEq, Repr

namespace Registers

/-- All registers zero. -/
def cleared : Registers := ⟨Vector.replicate 16 0⟩

/-- The register that instructions report in. -/
def flag : Digit := 0xF

variable (r : Registers)

/-- The byte in a register. -/
def get (x : Digit) : UInt8 := r.bytes[x.val]

/-- Put a byte into a register. -/
def set (x : Digit) (value : UInt8) : Registers := ⟨r.bytes.set x.val value⟩

/-- Report yes or no in the flag. -/
def setFlag (report : Bool) : Registers := r.set flag (if report then 1 else 0)

/-- The bytes from register 0 up to and including `x`. -/
def upTo (x : Digit) : List UInt8 := r.bytes.toList.take (x.val + 1)

/-- Put bytes into the registers from 0 up to and including `x`. -/
def restore (x : Digit) (bytes : List UInt8) : Registers :=
  ⟨Vector.ofFn fun k ↦ if k ≤ x then bytes.getD k.val 0 else r.get k⟩

/-! ### What the operations do to the registers -/

/-- Two register files with the same bytes are the same. -/
theorem ext_get {r r' : Registers} (h : ∀ k, r.get k = r'.get k) : r = r' := by
  cases r; cases r'
  congr 1
  exact Vector.ext fun k hk ↦ h ⟨k, hk⟩

theorem get_set (x k : Digit) (value : UInt8) :
    (r.set x value).get k = if k = x then value else r.get k := by
  simp only [set, get, Vector.getElem_set, Fin.ext_iff]
  by_cases h : k.val = x.val
  · rw [if_pos h, if_pos h.symm]
  · rw [if_neg h, if_neg fun h' ↦ h h'.symm]

theorem get_setFlag (k : Digit) (report : Bool) :
    (r.setFlag report).get k = if k = flag then (if report then 1 else 0) else r.get k :=
  r.get_set flag k _

@[simp] theorem length_upTo (x : Digit) : (r.upTo x).length = x.val + 1 := by
  have := x.isLt
  rw [upTo, List.length_take, Vector.length_toList]
  omega

/-- The bytes listed are those of the registers, in order. -/
theorem getD_upTo (x k : Digit) (h : k ≤ x) : (r.upTo x).getD k.val 0 = r.get k := by
  have hk : k.val < x.val + 1 := Nat.lt_succ_of_le h
  simp [upTo, get, hk]

theorem get_restore (x k : Digit) (bytes : List UInt8) :
    (r.restore x bytes).get k = if k ≤ x then bytes.getD k.val 0 else r.get k := by
  simp [restore, get]

end Registers

end ChipEight
