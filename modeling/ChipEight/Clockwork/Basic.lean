import ChipEight.Machine.Cycle

/-!
# Two live clocks

Instead of being driven by elapsed durations, a machine can be shared by two clocks that run on their
own, one for instructions and one for the timers, under a controller that starts and stops them. All
three act at the same time, and every action on the machine is atomic.

**Interleavings are data.** What the three can do is a list of `Action`s, and `perform` says of each
where it is possible and what it leads to. Nothing is said of when a clock acts: a statement about all
possible interleavings is a statement about all lists of actions.

**A clock** looks whether it should go on, does its duty, and looks again. The instruction clock also
finishes when its cycle fails. Every clock that is ever started shares the one machine and the one
answer to its look (`running`), those of an earlier start included; nothing but the order in which
things are done keeps an old clock from going on when new ones are started.

**The controller** makes one call at a time, and a call takes several actions. Starting raises the flag
and then sets the clocks going one after the other; while clocks are held it does nothing, even if one
of them has finished long ago. Stopping takes the flag down, waits for each of the clocks held to
finish and lets go of it, and only then does what it stopped them for.
-/

namespace ChipEight

/-- What a clock does each time around. -/
inductive Duty where
  | instructions
  | timers
  deriving DecidableEq, Repr

/-- Where a clock is in its loop. -/
inductive Phase where
  /-- About to look whether it should go on. -/
  | looking
  /-- About to do its duty once. -/
  | working
  /-- Out of its loop. -/
  | finished
  deriving DecidableEq, Repr

/-- A clock that was set going. -/
structure Clock where
  duty : Duty
  phase : Phase
  deriving DecidableEq, Repr

/-- What the clocks are stopped for. -/
inductive Purpose where
  | rest
  | load (program : List UInt8)
  | reset
  deriving DecidableEq, Repr

/-- What the controller is in the middle of. -/
inductive Call where
  /-- It has clocks to set going, in this order. -/
  | start (pending : List Duty)
  /-- It has clocks to let go of, and then something to do. -/
  | stop (purpose : Purpose)
  deriving DecidableEq, Repr

/-- A machine, the clocks that share it and their controller. -/
structure Clockwork where
  machine : Machine
  /-- What a clock looks at: whether it should go on. -/
  running : Bool
  /-- All clocks that were ever set going, in that order. A clock is named by its place. -/
  clocks : List Clock
  /-- The clocks that the controller holds on to. -/
  held : List Nat
  /-- The call that the controller is in, until it returns. -/
  call : Option Call
  deriving DecidableEq

/-- One atomic action of a clock or of the controller. -/
inductive Action where
  | clock (i : Nat)
  | start
  | stop (purpose : Purpose)
  /-- The call that the controller is in goes on. -/
  | proceed
  | key (k : Digit) (down : Bool)
  deriving DecidableEq, Repr

namespace Purpose

/-- What becomes of the machine once the clocks have stopped. -/
def act (m : Machine) : Purpose → Machine
  | rest => m
  | load program =>
    match m.load program with
    | .ok loaded => loaded
    | .error _ => m
  | reset => m.reset

end Purpose

namespace Clockwork

/-- A machine without clocks. -/
def new (m : Machine) : Clockwork := ⟨m, false, [], [], none⟩

variable (c : Clockwork)

/-- One turn of a clock: where it is then, and the machine it leaves behind. -/
def turn (clock : Clock) : Option (Phase × Machine) :=
  match clock.phase with
  | .looking => some (if c.running then .working else .finished, c.machine)
  | .working =>
    match clock.duty with
    | .instructions =>
      let made := c.machine.cycle
      match made.outcome with
      | .ok _ => some (.looking, made.machine)
      | .error _ => some (.finished, made.machine)
    | .timers => some (.looking, c.machine.tick)
  | .finished => none

/-- The call that the controller is in goes on. -/
def proceed : Option Clockwork :=
  match c.call with
  | none => none
  | some (.start []) => some { c with call := none }
  | some (.start (duty :: pending)) =>
    some
      { c with
        clocks := c.clocks ++ [⟨duty, .looking⟩]
        held := c.held ++ [c.clocks.length]
        call := some (.start pending) }
  | some (.stop purpose) =>
    match c.held with
    | [] => some { c with machine := purpose.act c.machine, call := none }
    | i :: held =>
      if c.clocks[i]?.all (·.phase == .finished) then some { c with held } else none

/-- Perform an action, if it is possible. While it is in a call, the controller begins nothing else. -/
def perform : Action → Option Clockwork
  | .clock i =>
    c.clocks[i]?.bind fun clock ↦ (c.turn clock).map fun (phase, machine) ↦
      { c with machine, clocks := c.clocks.set i { clock with phase } }
  | .start =>
    if c.call.isSome then none
    else if c.held.isEmpty then
      some { c with running := true, call := some (.start [.instructions, .timers]) }
    else some c
  | .stop purpose =>
    if c.call.isSome then none
    else some { c with running := c.running && c.held.isEmpty, call := some (.stop purpose) }
  | .proceed => c.proceed
  | .key k down =>
    if c.call.isSome then none else some { c with machine := c.machine.setKey k down }

/-- Perform actions one after the other, each of which has to be possible. -/
def performAll (c : Clockwork) : List Action → Option Clockwork
  | [] => some c
  | action :: actions => (c.perform action).bind fun next ↦ next.performAll actions

/-- Whether both clocks are alive. -/
def isRunning : Bool :=
  !c.held.isEmpty && c.held.all fun i ↦ c.clocks[i]?.any (·.phase != .finished)

/-! ### Taking turns

A schedule lets everybody act in turn, which is one interleaving out of many. Whoever cannot act when
its turn comes misses it. -/

/-- Perform an action if it is possible. -/
def attempt (action : Action) : Clockwork := (c.perform action).getD c

/-- Let the clocks that are held for a duty act once. -/
def turnAll (duty : Duty) : Clockwork :=
  (c.held.filter fun i ↦ c.clocks[i]?.any (·.duty == duty)).foldl (fun c i ↦ c.attempt (.clock i)) c

/-- Start the clocks, unless some are held. -/
def start : Clockwork := [.start, .proceed, .proceed, .proceed].foldl attempt c

/-- Stop the clocks for some purpose and attend to it: a clock that is at work finishes it, and every
clock looks once more before it ends. -/
def stop (purpose : Purpose) : Clockwork :=
  let stopping := c.attempt (.stop purpose)
  let ended := [.instructions, .instructions, .timers, .timers].foldl turnAll stopping
  [.proceed, .proceed, .proceed].foldl attempt ended

/-- What the controller learns from stopping the clocks for some purpose: whether a program is
accepted. -/
def replyTo : Purpose → Except Fault Unit
  | .load program => (c.machine.load program).map fun _ ↦ ()
  | .rest | .reset => .ok ()

/-- Press or release a key. -/
def setKey (k : Digit) (down : Bool) : Clockwork := c.attempt (.key k down)

/-- Something done to the machine alone, between two actions. -/
def onMachine (machine : Machine) : Clockwork := { c with machine }

end Clockwork

end ChipEight
