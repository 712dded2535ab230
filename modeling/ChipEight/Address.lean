import ChipEight.RangeError

/-!
# Addresses

The machine addresses four kilobytes, so an address has twelve bits. The index register and every
jump target are addresses; the program counter is not, since it may be advanced past the end of
memory before the next fetch notices.

Addition of addresses is addition modulo 4096, which is addition in `Fin 4096`.
-/

namespace ChipEight

/-- A twelve-bit address. -/
abbrev Address := Fin 4096

namespace Address

/-- The address with the given value, if it fits in twelve bits. -/
def ofNat? (n : Nat) : Except RangeError Address :=
  if h : n < 4096 then .ok ⟨n, h⟩ else .error .address

/-- The low twelve bits of a number. -/
def masked (n : Nat) : Address :=
  ⟨n % 4096, Nat.mod_lt _ (by decide)⟩

/-- The address `n` cells further on, wrapping at the end of memory. -/
def advance (a : Address) (n : Nat) : Address :=
  masked (a.val + n)

/-- The address as a sixteen-bit word, which is how a jump reaches the program counter. -/
def toWord (a : Address) : UInt16 := UInt16.ofNat a.val

@[simp] theorem toNat_toWord (a : Address) : a.toWord.toNat = a.val := by
  have := a.isLt
  simp [toWord]
  omega

end Address

end ChipEight
