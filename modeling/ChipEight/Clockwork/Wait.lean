import ChipEight.Clockwork.Basic

/-!
# Waiting for something to happen

Whoever watches the clocks run can wait for a condition on the machine. Time passes in rounds of one
timer tick, with the instructions of that time before it, and a wait is given up after five seconds.

Conditions that stay true once they are, such as a fault or an instruction that jumps to itself, are
met in every interleaving; for those the schedule makes no difference to the answer.
-/

namespace ChipEight

/-- Something to wait for. -/
inductive Awaited where
  | fault
  | notRunning
  | keyWait
  | noKeyWait
  | pcAt (address : Nat)
  | sound
  | silence
  | delayOver
  deriving DecidableEq, Repr

namespace Awaited

/-- Whether what is waited for is so. -/
def holds (c : Clockwork) : Awaited → Bool
  | fault => c.machine.fault.isSome
  | notRunning => !c.isRunning
  | keyWait => c.machine.keyWait.isSome
  | noKeyWait => c.machine.keyWait.isNone
  | pcAt address => c.machine.pc.toNat == address
  | sound => c.machine.timers.soundActive
  | silence => !c.machine.timers.soundActive
  | delayOver => c.machine.timers.delay == 0

end Awaited

namespace Clockwork

/-- The most instructions that a round is given, however fast the machine is set to run. -/
def roundLimit : Nat := 20000

/-- Rounds in five seconds. -/
def patience : Nat := 5 * Timers.frequency

variable (c : Clockwork)

/-- The instructions of one timer period. -/
def instructionsPerRound : Nat :=
  min roundLimit (max 1 (c.machine.config.cpuHz.toNat / Timers.frequency))

/-- Let the instruction clock go around its loop, until something is so. -/
def runInstructions (awaited : Awaited) (c : Clockwork) : Nat → Clockwork
  | 0 => c
  | n + 1 =>
    if awaited.holds c then c
    else runInstructions awaited ((c.turnAll .instructions).turnAll .instructions) n

/-- One round: instructions, then a tick, unless it has been waited for long enough. -/
def round (awaited : Awaited) : Clockwork :=
  let c := c.runInstructions awaited c.instructionsPerRound
  if awaited.holds c then c else (c.turnAll .timers).turnAll .timers

/-- Wait for something, at most a number of rounds. The answer says whether it came. -/
def wait (awaited : Awaited) (c : Clockwork) : (rounds : Nat) → Bool × Clockwork
  | 0 => (awaited.holds c, c)
  | rounds + 1 => if awaited.holds c then (true, c) else (c.round awaited).wait awaited rounds

end Clockwork

end ChipEight
