import ChipEight.Fault
import ChipEight.RangeError
import ChipEight.Memory.Bank
import ChipEight.Memory.Font

/-!
# Memory

Four kilobytes. The first 512 bytes belong to the interpreter and hold the font; a program is loaded
behind them and may write only there.

| range           | holds                          |
|-----------------|--------------------------------|
| `0x000`–`0x04F` | zeros                          |
| `0x050`–`0x09F` | the font                       |
| `0x0A0`–`0x1FF` | zeros                          |
| `0x200`–`0xFFF` | the program and what it writes |

**All or nothing.** Every access names a range, and a range that is not wholly allowed is refused
before a single byte moves. A write is refused for reaching into the interpreter's part before it is
refused for running past the end, whatever its length.

The view of a memory is `cell`, the byte at an address, and each operation is characterised by what it
does to that view.
-/

namespace ChipEight

/-- Four kilobytes of bytes. -/
structure Memory where
  bank : Bank 12
  deriving DecidableEq

namespace Memory

/-- The number of cells. -/
def size : Nat := 4096

/-- Where programs start; everything below belongs to the interpreter. -/
def programStart : Nat := 0x200

/-- The longest program that fits. -/
def capacity : Nat := size - programStart

/-- Where the font starts. -/
def fontStart : Nat := 0x50

/-- The first address behind the font. -/
def fontEnd : Nat := fontStart + Font.glyphs.length

/-- Memory as it is when the machine is switched on: the font, and zeros. -/
def powerOn : Memory :=
  ⟨.ofFn 12 fun a ↦ if fontStart ≤ a then Font.glyphs.getD (a - fontStart) 0 else 0⟩

/-- The address of the glyph for a byte. Bytes above 15 have no glyph, and name the place where one
would be if the font went on. -/
def glyphAddress (digit : UInt8) : Nat :=
  fontStart + Font.glyphSize * digit.toNat

variable (m : Memory)

/-- The byte at an address below `size`. -/
def cell (a : Nat) : UInt8 := m.bank.read a

/-- The `length` bytes from an address on. -/
def cells (a length : Nat) : List UInt8 :=
  (List.range length).map fun k ↦ m.cell (a + k)

/-- Replace the bytes from an address on. Whether they may be replaced is for the caller to know. -/
def place (m : Memory) (a : Nat) : List UInt8 → Memory
  | [] => m
  | b :: bytes => place ⟨m.bank.write a b⟩ (a + 1) bytes

/-- Read one byte. -/
def read (a : Nat) : Except Fault UInt8 :=
  if a < size then .ok (m.cell a) else .error (.addressOutOfRange a)

/-- Read a range of bytes. -/
def slice (a length : Nat) : Except Fault (List UInt8) :=
  if a + length ≤ size then .ok (m.cells a length) else .error (.addressOutOfRange (max a size))

/-- Look at a range of bytes from outside the machine. -/
def window? (a length : Nat) : Except RangeError (List UInt8) :=
  if a + length ≤ size then .ok (m.cells a length) else .error (.range size (a + length))

/-- Write a range of bytes on behalf of a running program. -/
def write (a : Nat) (bytes : List UInt8) : Except Fault Memory :=
  if a < programStart then .error (.reservedAddress a)
  else if a + bytes.length ≤ size then .ok (m.place a bytes)
  else .error (.addressOutOfRange (max a size))

/-- Copy a program to where programs start. -/
def load (program : List UInt8) : Except Fault Memory :=
  if program.length ≤ capacity then .ok (m.place programStart program)
  else .error (.programTooLarge program.length capacity)

/-- The instruction word at an address, the high byte first. -/
def word (a : Nat) : UInt16 :=
  UInt16.ofNat (256 * (m.cell a).toNat + (m.cell (a + 1)).toNat)

/-- Fetch the instruction word at an address: both of its bytes must exist. -/
def fetch (a : Nat) : Except Fault UInt16 :=
  if a + 2 ≤ size then .ok (m.word a) else .error (.addressOutOfRange a)

/-! ### What the operations do to the cells -/

/-- Two memories with the same cells are the same memory. -/
theorem ext_cell {m m' : Memory} (h : ∀ a < size, m.cell a = m'.cell a) : m = m' := by
  cases m; cases m'
  congr 1
  exact Bank.ext_read h

/-- The font is where it should be, and nothing else is anywhere. -/
theorem cell_powerOn {a : Nat} (h : a < size) :
    powerOn.cell a = if fontStart ≤ a then Font.glyphs.getD (a - fontStart) 0 else 0 := by
  rw [powerOn, cell, Bank.read_ofFn, show a % Bank.size 12 = a from Nat.mod_eq_of_lt h]

@[simp] theorem length_cells (a length : Nat) : (m.cells a length).length = length := by
  simp [cells]

/-- A range read at one place. -/
theorem getElem?_cells (a length k : Nat) :
    (m.cells a length)[k]? = if k < length then some (m.cell (a + k)) else none := by
  by_cases h : k < length <;> simp [cells, h]

/-- **Placing bytes changes exactly the cells they land on.** -/
theorem cell_place (a : Nat) (bytes : List UInt8) (h : a + bytes.length ≤ size) {c : Nat}
    (hc : c < size) :
    (m.place a bytes).cell c
      = if a ≤ c ∧ c < a + bytes.length then bytes.getD (c - a) 0 else m.cell c := by
  induction bytes generalizing m a with
  | nil => rw [if_neg (by simp)]; rfl
  | cons b bytes ih =>
    simp only [List.length_cons] at h
    have hmod : ∀ x : Nat, x < size → x % Bank.size 12 = x := fun x hx ↦ Nat.mod_eq_of_lt hx
    rw [place, ih _ _ (by omega)]
    simp only [cell, Bank.read_write, hmod c hc, hmod a (by omega), List.length_cons]
    by_cases hca : c = a
    · subst hca
      rw [if_neg (by omega), if_pos rfl, if_pos (by omega)]
      simp
    · rw [if_neg hca]
      by_cases hin : a ≤ c ∧ c < a + (bytes.length + 1)
      · rw [if_pos (by omega), if_pos hin]
        obtain ⟨d, rfl⟩ : ∃ d, c = a + 1 + d := ⟨c - (a + 1), by omega⟩
        rw [show a + 1 + d - (a + 1) = d by omega, show a + 1 + d - a = d + 1 by omega]
        simp
      · rw [if_neg (by omega), if_neg hin]

end Memory

end ChipEight
