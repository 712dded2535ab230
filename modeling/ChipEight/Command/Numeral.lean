/-!
# Numerals on the command line

A numeral is an optional sign and at least one decimal digit; leading zeros are fine. It is read from
the left into a range, and reading stops at the first thing that is wrong: a character that is no
digit, or a digit with which the number leaves the range. Where the range has no negative numbers there
is no minus sign either.
-/

namespace ChipEight.Numeral

/-- Why a text is no number of a range. -/
inductive Mistake where
  | empty
  | notDigit
  | tooLarge
  | tooSmall
  deriving DecidableEq, Repr

/-- What is said about a mistake. -/
def Mistake.message : Mistake → String
  | empty => "cannot parse integer from empty string"
  | notDigit => "invalid digit found in string"
  | tooLarge => "number too large to fit in target type"
  | tooSmall => "number too small to fit in target type"

/-- The numbers a numeral may stand for. -/
structure Range where
  least : Int
  greatest : Int
  deriving DecidableEq, Repr

namespace Range

/-- Signed numbers of sixty-four bits. -/
def signed64 : Range := ⟨-0x8000000000000000, 0x7FFFFFFFFFFFFFFF⟩

/-- Unsigned numbers of sixty-four bits. -/
def unsigned64 : Range := ⟨0, 0xFFFFFFFFFFFFFFFF⟩

end Range

/-- The value of a decimal digit. -/
def digit? (c : Char) : Option Nat :=
  if c.isDigit then some (c.toNat - '0'.toNat) else none

/-- Read the digits behind those that make `value`, of a number with the given sign. -/
def digits (range : Range) (sign : Int) (value : Int) : List Char → Except Mistake Int
  | [] => .ok value
  | c :: cs =>
    match digit? c with
    | none => .error .notDigit
    | some d =>
      let next := 10 * value + sign * d
      if next < range.least then .error .tooSmall
      else if range.greatest < next then .error .tooLarge
      else digits range sign next cs

/-- Read a numeral. -/
def read (range : Range) (text : String) : Except Mistake Int :=
  match text.toList with
  | [] => .error .empty
  | ['+'] | ['-'] => .error .notDigit
  | '+' :: cs => digits range 1 0 cs
  | '-' :: cs => if range.least < 0 then digits range (-1) 0 cs else .error .notDigit
  | cs => digits range 1 0 cs

end ChipEight.Numeral
