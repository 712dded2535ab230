import ChipEight.Proofs.Machine.Moments

/-!
# The latched fault

A machine keeps one fault and not a list of them. What that fault is has to be said of the whole
history: it is the fault of the **first** cycle that failed since the machine was last restarted, and
there is none exactly if no cycle has failed since. The cycles that fail afterwards fail with
`halted`, and that is never kept, since a fault that is there is not replaced.

Both rest on what one event does to the fault (`fault_after`): a restart clears it, and any other
event keeps the fault that is there and otherwise takes the one its cycle fails with.

**Main statement**: `run_powerOn_fault`.
-/

namespace ChipEight

namespace Machine

variable {m next : Machine} {op : Opcode} {fault : Fault}

/-! ### What one event does to the fault -/

/-- No instruction that is carried out touches the fault. -/
theorem Effect.fault_eq (effect : Effect m op next) : next.fault = m.fault := by
  cases effect <;> rfl

/-- A cycle keeps the fault that is there, and otherwise takes the one it fails with. -/
theorem fault_cycle (m : Machine) :
    m.cycle.machine.fault = m.fault.or m.cycle.failure? := by
  cases m.beat with
  | halted halted result => rw [result, halted]; rfl
  | @polled x running _ result =>
    obtain ⟨_, _, _, hpoll⟩ := m.pollKey_frame x
    rw [result, running, hpoll]
    exact running
  | unfetched running _ _ result | unread running _ _ _ result => rw [result, running]; rfl
  | refused hop _ result => rw [result, hop.running]; rfl
  | done hop done result =>
    rw [result, hop.running]
    exact (effect_of_execute done).fault_eq.trans hop.running

/-- **What one event does to the fault**: a restart clears it, and whatever else happens never replaces
one. -/
theorem fault_after (t : Moment) :
    t.after.fault = if t.event.restarts then none else t.machine.fault.or t.failure? := by
  obtain ⟨m, event⟩ := t
  cases event with
  | load program =>
    by_cases h : (Event.load program).restarts = true
    · obtain ⟨_, hafter⟩ := m.apply_of_restarts h
      rw [if_pos h, Moment.after, hafter]
      rfl
    · rw [if_neg h, Moment.after, apply_load_of_not_restarts h]
      exact (Option.or_none).symm
  | reset => rfl
  | cycle => exact fault_cycle m
  | tick | key => exact (Option.or_none).symm

/-! ### What a history does to it -/

/-- **The fault of a machine is the first one that a cycle failed with since the last restart**, if the
machine had none to begin with. -/
theorem fault_run (running : m.fault = none) (events : List Event) :
    (m.run events).fault =
      (since (fun t ↦ t.event.restarts) (m.moments events)).findSome? Moment.failure? := by
  induction events using List.reverseRecOn with
  | nil => exact running
  | append_singleton events event ih =>
    have hafter := fault_after ⟨m.run events, event⟩
    rw [moments_append, run_append, moments_cons, moments_nil, since_concat]
    rw [ih] at hafter
    refine hafter.trans ?_
    split
    · rfl
    · rw [List.findSome?_append, List.findSome?_singleton]

/-- A fault stays until the machine is restarted. -/
theorem fault_run_of_not_restarts (halted : m.fault = some fault) {events : List Event}
    (h : ∀ event ∈ events, ¬ event.restarts) : (m.run events).fault = some fault := by
  refine run_of_events (P := fun m ↦ m.fault = some fault) (Q := fun event ↦ ¬ event.restarts)
    (fun m event hevent halted ↦ ?_) halted h
  have hafter := fault_after ⟨m, event⟩
  rw [if_neg hevent, halted, Option.some_or] at hafter
  exact hafter

/-- **The fault that is latched.** After any history of a new machine there is no fault exactly if no
cycle has failed since the machine was switched on, reset or loaded, whichever was last; and there is
a fault exactly if it is the one that the first such cycle failed with. It stays whatever happens
until the next restart, and until then every cycle fails with `halted` and changes nothing. -/
theorem run_powerOn_fault (config : Config) (generator : Generator) (events : List Event) :
    let new := powerOn config generator
    let m := new.run events
    let recent := since (fun t ↦ t.event.restarts) (new.moments events)
    (m.fault = none ↔ ∀ t ∈ recent, t.failure? = none) ∧
      (∀ fault, m.fault = some fault ↔ ∃ before t after, recent = before ++ t :: after ∧
        t.failure? = some fault ∧ ∀ earlier ∈ before, earlier.failure? = none) ∧
      ∀ fault, m.fault = some fault → ∀ later : List Event, (∀ event ∈ later, ¬ event.restarts) →
        (m.run later).fault = some fault ∧ (m.run later).cycle = ⟨.error .halted, [], m.run later⟩ := by
  intro new m recent
  have hfault : m.fault = recent.findSome? Moment.failure? := fault_run rfl events
  refine ⟨?_, fun fault ↦ ?_, fun fault halted later hlater ↦ ?_⟩
  · rw [hfault, List.findSome?_eq_none_iff]
  · rw [hfault, List.findSome?_eq_some_iff]
  · have hlatched := fault_run_of_not_restarts halted hlater
    exact ⟨hlatched, cycle_of_fault hlatched⟩

/-- A program fails at once. The fault stays while cycles are tried, the timers tick, a key goes down
and a program is offered that is one byte too long. -/
theorem first_word_fails :
    let m := (powerOn .usual (.ofSeed 0)).run [.load [0xFF, 0xFF, 0x60, 0x01], .cycle]
    let later : List Event :=
      [.cycle, .tick, .key 3 true, .load (List.replicate 3585 0), .cycle]
    m.fault = some (.invalidInstruction 0xFFFF) ∧ (∀ event ∈ later, ¬ event.restarts) ∧
      (m.run later).fault = some (.invalidInstruction 0xFFFF) ∧
        (m.run later).cycle = ⟨.error .halted, [], m.run later⟩ := by
  intro m later
  have halted : m.fault = some (.invalidInstruction 0xFFFF) := by decide
  have hlong : ¬ (Event.load (List.replicate 3585 0)).restarts := by
    rw [Event.restarts, List.length_replicate]
    decide
  have hlater : ∀ event ∈ later, ¬ event.restarts := by
    simp only [later, List.forall_mem_cons]
    exact ⟨Bool.false_ne_true, Bool.false_ne_true, Bool.false_ne_true, hlong, Bool.false_ne_true,
      List.forall_mem_nil _⟩
  exact ⟨halted, hlater, (run_powerOn_fault _ _ _).2.2 _ halted later hlater⟩

end Machine

end ChipEight
