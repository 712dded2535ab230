import ChipEight.Digit
import ChipEight.Address

/-!
# Instruction words

An instruction is one sixteen-bit word, four hexadecimal digits. The first digit is the **kind**, and
what the other three mean depends on it:

| form   | reading                                     | put together by  |
|--------|---------------------------------------------|------------------|
| `KXYN` | two registers and a digit                   | `Word.ofDigits`  |
| `KXNN` | a register and a byte                       | `Word.ofByte`    |
| `KNNN` | an address                                  | `Word.ofAddress` |

Every field is a quotient and a remainder of the word as a number, so that facts about fields are
facts of arithmetic.
-/

namespace ChipEight

/-- A sixteen-bit instruction word. -/
abbrev Word := UInt16

namespace Word

variable (w : Word)

/-- The first digit, which sorts the instructions. -/
def kind : Digit := ⟨w.toNat / 4096, by have := w.toNat_lt; omega⟩

/-- The second digit. -/
def x : Digit := ⟨w.toNat / 256 % 16, by omega⟩

/-- The third digit. -/
def y : Digit := ⟨w.toNat / 16 % 16, by omega⟩

/-- The last digit. -/
def n : Digit := ⟨w.toNat % 16, by omega⟩

/-- The last two digits. -/
def nn : UInt8 := UInt8.ofNat (w.toNat % 256)

/-- The last three digits. -/
def nnn : Address := ⟨w.toNat % 4096, by omega⟩

/-- The word with four given digits. -/
def ofDigits (kind x y n : Digit) : Word :=
  UInt16.ofNat (4096 * kind.val + 256 * x.val + 16 * y.val + n.val)

/-- The word with a kind, a register and a byte. -/
def ofByte (kind x : Digit) (nn : UInt8) : Word :=
  UInt16.ofNat (4096 * kind.val + 256 * x.val + nn.toNat)

/-- The word with a kind and an address. -/
def ofAddress (kind : Digit) (nnn : Address) : Word :=
  UInt16.ofNat (4096 * kind.val + nnn.val)

/-! ### Taking apart and putting together -/

theorem toNat_nn : w.nn.toNat = w.toNat % 256 := by
  simp [nn]

theorem toNat_ofDigits (kind x y n : Digit) :
    (ofDigits kind x y n).toNat = 4096 * kind.val + 256 * x.val + 16 * y.val + n.val := by
  have := kind.isLt; have := x.isLt; have := y.isLt; have := n.isLt
  simp only [ofDigits, UInt16.toNat_ofNat']
  omega

theorem toNat_ofByte (kind x : Digit) (nn : UInt8) :
    (ofByte kind x nn).toNat = 4096 * kind.val + 256 * x.val + nn.toNat := by
  have := kind.isLt; have := x.isLt; have := nn.toNat_lt
  simp only [ofByte, UInt16.toNat_ofNat']
  omega

theorem toNat_ofAddress (kind : Digit) (nnn : Address) :
    (ofAddress kind nnn).toNat = 4096 * kind.val + nnn.val := by
  have := kind.isLt; have := nnn.isLt
  simp only [ofAddress, UInt16.toNat_ofNat']
  omega

/-- **A word is its four digits.** -/
theorem ofDigits_fields : ofDigits w.kind w.x w.y w.n = w := by
  have := w.toNat_lt
  refine UInt16.toNat_inj.1 ?_
  rw [toNat_ofDigits]
  simp only [kind, x, y, n]
  omega

/-- **A word is its kind, its register and its byte.** -/
theorem ofByte_fields : ofByte w.kind w.x w.nn = w := by
  have := w.toNat_lt
  refine UInt16.toNat_inj.1 ?_
  rw [toNat_ofByte, toNat_nn]
  simp only [kind, x]
  omega

/-- **A word is its kind and its address.** -/
theorem ofAddress_fields : ofAddress w.kind w.nnn = w := by
  have := w.toNat_lt
  refine UInt16.toNat_inj.1 ?_
  rw [toNat_ofAddress]
  simp only [kind, nnn]
  omega

/-- The fields of a word made from four digits are those digits. -/
theorem fields_ofDigits (k a b c : Digit) :
    (ofDigits k a b c).kind = k ∧ (ofDigits k a b c).x = a ∧ (ofDigits k a b c).y = b ∧
      (ofDigits k a b c).n = c := by
  have := k.isLt; have := a.isLt; have := b.isLt; have := c.isLt
  simp only [Fin.ext_iff, kind, x, y, n, toNat_ofDigits]
  omega

/-- The fields of a word made from a register and a byte are that register and that byte. -/
theorem fields_ofByte (k a : Digit) (b : UInt8) :
    (ofByte k a b).kind = k ∧ (ofByte k a b).x = a ∧ (ofByte k a b).nn = b := by
  have := k.isLt; have := a.isLt; have := b.toNat_lt
  refine ⟨?_, ?_, UInt8.toNat_inj.1 ?_⟩
  · simp only [Fin.ext_iff, kind, toNat_ofByte]; omega
  · simp only [Fin.ext_iff, x, toNat_ofByte]; omega
  · rw [toNat_nn, toNat_ofByte]; omega

/-- The fields of a word made from an address are that address. -/
theorem fields_ofAddress (k : Digit) (a : Address) :
    (ofAddress k a).kind = k ∧ (ofAddress k a).nnn = a := by
  have := k.isLt; have := a.isLt
  simp only [Fin.ext_iff, kind, nnn, toNat_ofAddress]
  omega

end Word

end ChipEight
