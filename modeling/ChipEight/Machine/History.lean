import ChipEight.Machine.Cycle

/-!
# Histories

Everything that ever happens to a machine is one of five **events**. A history is a list of them, and
running it is a fold.

An event has three sides, the machine afterwards, the reply to whoever caused it and the entries in the
journal. They are three functions, so that a statement about one does not carry the others along.
-/

namespace ChipEight

/-- Something that happens to a machine. -/
inductive Event where
  | load (program : List UInt8)
  | reset
  | cycle
  | tick
  | key (k : Digit) (down : Bool)
  deriving DecidableEq, Repr

namespace Machine

variable (m : Machine)

/-- The machine after an event. -/
def apply : Event → Machine
  | .load program =>
    match m.load program with
    | .ok loaded => loaded
    | .error _ => m
  | .reset => m.reset
  | .cycle => m.cycle.machine
  | .tick => m.tick
  | .key k down => m.setKey k down

/-- The reply to an event. Only a cycle has a signal to give, and only a load or a cycle can fail. -/
def reply : Event → Except Fault (Option Signal)
  | .load program => (m.load program).map fun _ ↦ none
  | .cycle => m.cycle.outcome.map some
  | .reset | .tick | .key .. => .ok none

/-- What an event adds to the journal. A program that is accepted is reported after the reset it
begins with; one that is refused is not reported. -/
def journal : Event → List JournalEntry
  | .load program =>
    match m.load program with
    | .ok _ => [.reset, .loaded program.length]
    | .error _ => []
  | .reset => [.reset]
  | .cycle => m.cycle.journal
  | .tick | .key .. => []

/-- The machine after a history. -/
def run (events : List Event) : Machine := events.foldl apply m

/-- The journal of a history. -/
def runJournal : Machine → List Event → List JournalEntry
  | _, [] => []
  | m, event :: events => m.journal event ++ runJournal (m.apply event) events

@[simp] theorem run_nil : m.run [] = m := rfl

@[simp] theorem run_cons (event : Event) (events : List Event) :
    m.run (event :: events) = (m.apply event).run events := rfl

/-- A history may be cut anywhere. -/
theorem run_append (before after : List Event) : m.run (before ++ after) = (m.run before).run after := by
  simp [run]

end Machine

end ChipEight
