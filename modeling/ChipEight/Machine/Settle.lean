import ChipEight.Machine.Cycle

/-!
# Running until nothing new happens

Most programs end in an instruction that jumps to itself. `settle` makes cycles until that point, a
failure or a wait for a key, or until it has made as many as it may.

**Whoever runs a machine says what to remember.** A run can be long, and most of what its cycles give is
of no interest afterwards, so a run keeps only what it is told to make of each cycle. Keeping all of
them is one way of watching, and every other one sees the same cycles (`settle_eq_foldl`).
-/

namespace ChipEight

namespace Machine

/-- Whether a run ends with a cycle that was made at an address: it failed, began or continued a wait,
or led back to where it was. -/
def endsRun (pc : UInt16) (cycle : Cycle) : Bool :=
  match cycle.outcome with
  | .error _ | .ok .waitingForKey => true
  | .ok .proceed | .ok .displayChanged => cycle.machine.pc == pc

variable {β : Type}

/-- Make cycles until the machine settles, at most `limit` of them. -/
@[specialize] def settle (watch : β → Cycle → β) (seen : β) (m : Machine) :
    (limit : Nat) → β × Machine
  | 0 => (seen, m)
  | limit + 1 =>
    let pc := m.pc
    let cycle := m.cycle
    if endsRun pc cycle then (watch seen cycle, cycle.machine)
    else settle watch (watch seen cycle) cycle.machine limit

/-- The cycles made until the machine settles, in order. -/
def settlingCycles (m : Machine) : (limit : Nat) → List Cycle
  | 0 => []
  | limit + 1 =>
    m.cycle :: if endsRun m.pc m.cycle then [] else m.cycle.machine.settlingCycles limit

/-- **Every watcher sees the same cycles**, and the run ends where the last of them does. -/
theorem settle_eq_foldl (watch : β → Cycle → β) (seen : β) (m : Machine) (limit : Nat) :
    m.settle watch seen limit
      = ((m.settlingCycles limit).foldl watch seen,
          ((m.settlingCycles limit).getLast?.map Cycle.machine).getD m) := by
  induction limit generalizing seen m with
  | zero => rfl
  | succ limit ih =>
    simp only [settle, settlingCycles]
    split
    · rfl
    · rw [ih, List.foldl_cons, List.getLast?_cons]
      cases (m.cycle.machine.settlingCycles limit).getLast? <;> rfl

end Machine

/-- What is usually remembered of a run: how many cycles it made and what came of the last. -/
structure Tally where
  cycles : Nat
  last : Option (Except Fault Signal)

namespace Tally

/-- Before the first cycle. -/
def nothing : Tally := ⟨0, none⟩

/-- Take a cycle into account. -/
def add (tally : Tally) (cycle : Cycle) : Tally := ⟨tally.cycles + 1, some cycle.outcome⟩

end Tally

end ChipEight
