import ChipEight.Random.ChaCha

/-!
# The random stream

A generator is a key and a count of the bytes drawn so far. The stream of a key is one fixed infinite
sequence, `Key → Nat → UInt8`; drawing reads it at the count and advances the count by one. So two
generators with the same key and the same count agree for ever, and nothing but a draw moves a
generator.

A byte is the low eight bits of one word of the stream, so each draw consumes a whole word.
-/

namespace ChipEight

/-! ### Keys from seeds -/

namespace Seed

/-- One step of the linear congruence that spreads a seed over a key. -/
def advance (s : UInt64) : UInt64 := s * 6364136223846793005 + 11634580027462260723

/-- The word read off a state of the congruence: its high bits folded onto its middle ones, and
rotated right by its top five. -/
def word (s : UInt64) : UInt32 :=
  let folded := (((s >>> 18) ^^^ s) >>> 27).toUInt32
  let turn := (s >>> 59).toUInt32
  (folded >>> turn) ||| (folded <<< ((32 - turn) % 32))

/-- The states of the congruence after a seed. -/
def states (n : Nat) (s : UInt64) : List UInt64 :=
  match n with
  | 0 => []
  | n + 1 => advance s :: states n (advance s)

theorem length_states (n : Nat) (s : UInt64) : (states n s).length = n := by
  induction n generalizing s with
  | zero => rfl
  | succ n ih => simp [states, ih]

/-- The key a seed stands for: the words of the first eight states after it. -/
def key (seed : UInt64) : ChaCha.Key :=
  ⟨((states 8 seed).map word).toArray, by simp [length_states]⟩

end Seed

/-! ### The generator -/

/-- A place in the random stream of a key. -/
structure Generator where
  key : ChaCha.Key
  drawn : Nat
  deriving DecidableEq

namespace Generator

/-- The start of the stream of a seed. -/
def ofSeed (seed : UInt64) : Generator := ⟨Seed.key seed, 0⟩

/-- Byte `k` of the stream of a key: block after block, word after word, the low byte of each. -/
def byteAt (key : ChaCha.Key) (k : Nat) : UInt8 :=
  ((ChaCha.block key (UInt64.ofNat (k / 16))).get ⟨k % 16, Nat.mod_lt _ (by decide)⟩).toUInt8

variable (g : Generator)

/-- The byte the next draw gives. -/
def peek : UInt8 := byteAt g.key g.drawn

/-- The generator after a draw. -/
def advance : Generator := { g with drawn := g.drawn + 1 }

end Generator

end ChipEight
