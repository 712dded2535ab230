/-!
# Hexadecimal text

Addresses and instruction words are reported in upper-case hexadecimal, padded with zeros to a least
width and never cut.
-/

namespace ChipEight.Hexadecimal

/-- `n` in upper-case hexadecimal, with at least `width` digits. -/
def text (width n : Nat) : String :=
  let digits := (Nat.toDigits 16 n).map Char.toUpper
  String.ofList (List.replicate (width - digits.length) '0' ++ digits)

end ChipEight.Hexadecimal
