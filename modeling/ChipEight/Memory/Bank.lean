/-!
# Banks of bytes

A **bank** holds two to the `n` bytes (`size n`) in a complete binary tree, branching on the low bit of
the address first. Reading and writing follow one path, so a write shares everything off that path with
the bank it came from, and an access to a bank given by a closed expression evaluates in `n` steps
rather than by walking a list of cells.

Addresses are plain naturals and are read modulo the size. Nothing above this module relies on the
wrap-around: every access is bounds-checked before it gets here.

Three laws are all that is ever used of the tree: `read_ofFn`, `read_write` and `ext_read`.
-/

namespace ChipEight

/-- One byte, or the bytes at the even and at the odd addresses. -/
inductive Bank : Nat → Type where
  | byte (value : UInt8) : Bank 0
  | fork {n : Nat} (even odd : Bank n) : Bank (n + 1)
  deriving DecidableEq

namespace Bank

variable {n : Nat}

/-- The number of bytes in a bank of some height. -/
def size : Nat → Nat
  | 0 => 1
  | n + 1 => 2 * size n

/-- The byte at an address. -/
def read : {n : Nat} → Bank n → Nat → UInt8
  | _, byte value, _ => value
  | _, fork even odd, a => if a % 2 = 0 then even.read (a / 2) else odd.read (a / 2)

/-- The bank with one byte replaced. -/
def write : {n : Nat} → Bank n → Nat → UInt8 → Bank n
  | _, byte _, _, value => byte value
  | _, fork even odd, a, value =>
    if a % 2 = 0 then fork (even.write (a / 2) value) odd
    else fork even (odd.write (a / 2) value)

/-- The bank whose byte at each address is given by a function. -/
def ofFn : (n : Nat) → (Nat → UInt8) → Bank n
  | 0, f => byte (f 0)
  | n + 1, f => fork (ofFn n fun a ↦ f (2 * a)) (ofFn n fun a ↦ f (2 * a + 1))

/-! ### The three laws -/

/-- An address splits into its low bit and the address within the half that bit selects. -/
theorem mod_size_succ (a n : Nat) : a % size (n + 1) = a % 2 + 2 * (a / 2 % size n) := by
  rw [size, Nat.mod_mul]

/-- A bank built from a function reads as that function, modulo the size. -/
theorem read_ofFn (f : Nat → UInt8) (a : Nat) : (ofFn n f).read a = f (a % size n) := by
  induction n generalizing f a with
  | zero => simp [ofFn, read, size, Nat.mod_one]
  | succ n ih =>
    simp only [ofFn, read, ih, mod_size_succ a n]
    split
    · congr 1; omega
    · congr 1; omega

/-- **A write is seen at its own address and nowhere else.** -/
theorem read_write (t : Bank n) (a c : Nat) (value : UInt8) :
    (t.write a value).read c = if c % size n = a % size n then value else t.read c := by
  induction t generalizing a c with
  | byte => simp [write, read, size, Nat.mod_one]
  | @fork n even odd ihe iho =>
    simp only [write]
    by_cases ha : a % 2 = 0 <;> by_cases hc : c % 2 = 0
    · simp only [ha, hc, if_true, read, ihe, mod_size_succ]
      congr 1
      simp only [eq_iff_iff]
      omega
    · simp only [ha, hc, if_true, if_false, read, mod_size_succ]
      rw [if_neg (by omega)]
    · simp only [ha, hc, if_true, if_false, read, mod_size_succ]
      rw [if_neg (by omega)]
    · simp only [ha, hc, if_false, read, iho, mod_size_succ]
      congr 1
      simp only [eq_iff_iff]
      omega

/-- Two banks that read alike at every address are the same bank. -/
theorem ext_read {s t : Bank n} (h : ∀ a < size n, s.read a = t.read a) : s = t := by
  induction s with
  | byte value =>
    cases t with
    | byte other => exact congrArg byte (by simpa [read, size] using h 0)
  | @fork n even odd ihe iho =>
    cases t with
    | fork even' odd' =>
      congr 1
      · refine ihe fun a ha ↦ ?_
        have := h (2 * a) (by rw [size]; omega)
        simpa [read] using this
      · refine iho fun a ha ↦ ?_
        have := h (2 * a + 1) (by rw [size]; omega)
        simpa [read, Nat.mul_add_div] using this

end Bank

end ChipEight
