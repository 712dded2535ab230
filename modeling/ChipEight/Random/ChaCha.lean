/-!
# The ChaCha block function

A block function turns a key and a block number into sixteen words that look unrelated for any two
numbers. It is used here as the source of a random stream, with twelve rounds.

The state is sixteen words: four constants, eight words of key, the block number as two words with the
low one first, and two zero words. A **double round** applies the quarter round to the four columns
and then to the four diagonals. After the rounds the initial state is added back, which is what keeps
the whole from being undone.
-/

namespace ChipEight.ChaCha

/-- Sixteen words of state, or of output. -/
abbrev Block := Vector UInt32 16

/-- Eight words of key. -/
abbrev Key := Vector UInt32 8

/-- Rotate a word to the left. -/
def rotate (x : UInt32) (k : UInt32) : UInt32 := (x <<< k) ||| (x >>> (32 - k))

/-- Mix four words of the state: add, exclusive-or and rotate, four times over. -/
def quarterRound (s : Block) (a b c d : Fin 16) : Block :=
  let s := s.set a (s.get a + s.get b)
  let s := s.set d (rotate (s.get d ^^^ s.get a) 16)
  let s := s.set c (s.get c + s.get d)
  let s := s.set b (rotate (s.get b ^^^ s.get c) 12)
  let s := s.set a (s.get a + s.get b)
  let s := s.set d (rotate (s.get d ^^^ s.get a) 8)
  let s := s.set c (s.get c + s.get d)
  s.set b (rotate (s.get b ^^^ s.get c) 7)

/-- Mix the columns, then the diagonals. -/
def doubleRound (s : Block) : Block :=
  let s := quarterRound s 0 4 8 12
  let s := quarterRound s 1 5 9 13
  let s := quarterRound s 2 6 10 14
  let s := quarterRound s 3 7 11 15
  let s := quarterRound s 0 5 10 15
  let s := quarterRound s 1 6 11 12
  let s := quarterRound s 2 7 8 13
  quarterRound s 3 4 9 14

/-- Mix the state the given number of times. -/
def doubleRounds : Nat → Block → Block
  | 0, s => s
  | n + 1, s => doubleRounds n (doubleRound s)

/-- The state a block starts from. The constants spell `expand 32-byte k`. -/
def start (key : Key) (number : UInt64) : Block :=
  #v[(0x61707865 : UInt32), 0x3320646e, 0x79622d32, 0x6b206574] ++ key ++
    #v[number.toUInt32, (number >>> 32).toUInt32, 0, 0]

/-- Block `number` of the stream of a key. -/
def block (key : Key) (number : UInt64) : Block :=
  let s := start key number
  Vector.zipWith (· + ·) (doubleRounds 6 s) s

end ChipEight.ChaCha
