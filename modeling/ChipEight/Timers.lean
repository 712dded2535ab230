/-!
# Timers

Two bytes that count down to zero at sixty hertz, whatever the instruction clock does. A program reads
and sets the delay timer; it only sets the sound timer, which sounds while it is not zero.
-/

namespace ChipEight

/-- The delay timer and the sound timer. -/
structure Timers where
  delay : UInt8
  sound : UInt8
  deriving DecidableEq, Repr

namespace Timers

/-- Ticks in a second. -/
def frequency : Nat := 60

/-- Both timers run out. -/
def stopped : Timers := ⟨0, 0⟩

/-- One less, and never below zero. -/
def countDown (t : UInt8) : UInt8 := UInt8.ofNat (t.toNat - 1)

variable (t : Timers)

/-- One sixtieth of a second passes. -/
def tick : Timers := ⟨countDown t.delay, countDown t.sound⟩

/-- Whether the buzzer sounds. -/
def soundActive : Bool := decide (0 < t.sound)

@[simp] theorem toNat_countDown (t : UInt8) : (countDown t).toNat = t.toNat - 1 := by
  have := t.toNat_lt
  simp [countDown]
  omega

end Timers

end ChipEight
