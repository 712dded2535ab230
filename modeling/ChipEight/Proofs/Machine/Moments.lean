import Mathlib.Data.List.DropRight
import ChipEight.Proofs.Machine.Steps

/-!
# The moments of a history

Running a history gives the machine at its end and forgets what came before. The **moments** of a
history keep that: every event in it, together with the machine it happened to. Whatever is said of a
history as it goes on is said of its moments, such as which instructions were carried out in it, what
its cycles came to, or which keys went down.

A history **restarts** a machine where it resets it or loads a program that fits. Between two restarts
nothing but cycles, ticks and keys changes a machine.

What came **since** the last moment of a kind is a stretch at the end of a history. It grows with the
history and starts afresh at each moment of the kind (`since_concat`); which kind that is, and what a
history is made of, makes no difference to it.

**Main statement**: `run_of_moments`. It is `run_of_apply` for what is preserved at some moments only,
in a history that has no others.
-/

namespace ChipEight

namespace Event

/-- Whether an event takes a machine back to where it was switched on: a reset, or a load of a program
that fits. -/
def restarts : Event → Bool
  | .reset => true
  | .load program => decide (program.length ≤ Memory.capacity)
  | .cycle | .tick | .key .. => false

/-- A load restarts a machine exactly if the machine accepts it. -/
theorem restarts_load_iff (m : Machine) (program : List UInt8) :
    (load program).restarts = true ↔ ∃ loaded, m.load program = .ok loaded := by
  rw [restarts, decide_eq_true_iff]
  constructor
  · intro hfits
    exact ⟨_, map_eq_ok_iff.2 ⟨_, Memory.load_eq_ok_iff.2 ⟨hfits, rfl⟩, rfl⟩⟩
  · rintro ⟨loaded, hload⟩
    obtain ⟨memory, hmemory, -⟩ := map_eq_ok_iff.1 hload
    exact (Memory.load_eq_ok_iff.1 hmemory).1

end Event

namespace Machine

variable {program : List UInt8}

/-- A program that fits is loaded. -/
theorem load_of_fits (m : Machine) (hfits : program.length ≤ Memory.capacity) :
    m.load program = .ok { m.reset with memory := Memory.powerOn.place Memory.programStart program } :=
  map_eq_ok_iff.2 ⟨_, Memory.load_eq_ok_iff.2 ⟨hfits, rfl⟩, rfl⟩

/-- A program that does not fit is refused, by every machine alike. -/
theorem load_of_not_fits (m : Machine) (hfits : ¬ program.length ≤ Memory.capacity) :
    m.load program = .error (.programTooLarge program.length Memory.capacity) :=
  map_eq_error_iff.2 (if_neg hfits)

/-- **A restart leaves nothing but the memory to ask for**: everything else is as after a reset. -/
theorem apply_of_restarts {event : Event} (m : Machine) (h : event.restarts = true) :
    ∃ memory, m.apply event = { m.reset with memory } := by
  cases event with
  | load program =>
    obtain ⟨_, hload⟩ := (Event.restarts_load_iff m program).1 h
    obtain ⟨memory, -, rfl⟩ := map_eq_ok_iff.1 hload
    exact ⟨memory, by rw [apply, hload]⟩
  | reset => exact ⟨_, rfl⟩
  | cycle | tick | key => cases h

end Machine

/-- The fault that a cycle fails with, if it fails. -/
def Cycle.failure? (cycle : Cycle) : Option Fault :=
  match cycle.outcome with
  | .error fault => some fault
  | .ok _ => none

instance (m : Machine) (op : Opcode) : Decidable (m.Executes op) :=
  decidable_of_iff
    (m.fault = none ∧ m.keyWait = none ∧ m.pc.toNat + 2 ≤ Memory.size ∧
      Opcode.decode? m.current = some op)
    ⟨fun h ↦ ⟨h.1, h.2.1, h.2.2.1, h.2.2.2⟩, fun h ↦ ⟨h.running, h.awake, h.fits, h.reads⟩⟩

/-- An event of a history, and the machine it happens to. -/
structure Moment where
  machine : Machine
  event : Event

namespace Moment

variable (t : Moment)

/-- The machine afterwards. -/
def after : Machine := t.machine.apply t.event

/-- What the cycle of a moment comes to, if its event is a cycle. -/
def outcome? : Option (Except Fault Signal) :=
  match t.event with
  | .cycle => some t.machine.cycle.outcome
  | _ => none

/-- The fault that the cycle of a moment fails with, if its event is a cycle that fails. -/
def failure? : Option Fault :=
  match t.event with
  | .cycle => t.machine.cycle.failure?
  | _ => none

/-- An instruction is fetched and set about at a moment. -/
def Executes (op : Opcode) : Prop := t.event = .cycle ∧ t.machine.Executes op

instance (op : Opcode) : Decidable (t.Executes op) :=
  inferInstanceAs (Decidable (t.event = .cycle ∧ t.machine.Executes op))

end Moment

section Since

variable {α : Type}

/-- What comes after the last one of a kind, or everything if there is none. -/
def since (kind : α → Bool) (past : List α) : List α := past.rtakeWhile fun a ↦ !kind a

@[simp] theorem since_nil (kind : α → Bool) : since kind [] = [] := rfl

theorem since_concat (kind : α → Bool) (past : List α) (a : α) :
    since kind (past ++ [a]) = if kind a then [] else since kind past ++ [a] := by
  rw [since, List.rtakeWhile_concat]
  cases kind a <;> rfl

theorem mem_of_mem_since {kind : α → Bool} {past : List α} {a : α} (h : a ∈ since kind past) :
    a ∈ past :=
  (List.rtakeWhile_suffix _ past).mem h

end Since

namespace Machine

variable {m : Machine}

/-- The moments of a history, in order. -/
def moments : Machine → List Event → List Moment
  | _, [] => []
  | m, event :: events => ⟨m, event⟩ :: moments (m.apply event) events

/-- What the cycles of a history come to, in order. -/
def outcomes (m : Machine) (events : List Event) : List (Except Fault Signal) :=
  (m.moments events).filterMap Moment.outcome?

@[simp] theorem moments_nil : m.moments [] = [] := rfl

@[simp] theorem moments_cons (event : Event) (events : List Event) :
    m.moments (event :: events) = ⟨m, event⟩ :: (m.apply event).moments events := rfl

theorem moments_append (before after : List Event) :
    m.moments (before ++ after) = m.moments before ++ (m.run before).moments after := by
  induction before generalizing m with
  | nil => rfl
  | cons event before ih => rw [List.cons_append, moments_cons, ih, run_cons, moments_cons]; rfl

theorem outcomes_cons (event : Event) (events : List Event) :
    m.outcomes (event :: events)
      = (Moment.outcome? ⟨m, event⟩).toList ++ (m.apply event).outcomes events := by
  rw [outcomes, moments_cons, List.filterMap_cons]
  cases Moment.outcome? ⟨m, event⟩ <;> rfl

theorem outcomes_append (before after : List Event) :
    m.outcomes (before ++ after) = m.outcomes before ++ (m.run before).outcomes after := by
  rw [outcomes, moments_append, List.filterMap_append]
  rfl

/-- Wherever a history is cut, there is a moment of it. -/
theorem moment_mem_moments (m : Machine) (before : List Event) (event : Event) (after : List Event) :
    ⟨m.run before, event⟩ ∈ m.moments (before ++ event :: after) := by
  rw [moments_append]
  exact List.mem_append_right _ List.mem_cons_self

/-- The events of a history are those of its moments. -/
theorem event_mem_of_mem_moments {events : List Event} {t : Moment} (ht : t ∈ m.moments events) :
    t.event ∈ events := by
  induction events generalizing m with
  | nil => cases ht
  | cons event events ih =>
    rcases List.mem_cons.1 ht with rfl | ht
    · exact List.mem_cons_self
    · exact List.mem_cons_of_mem _ (ih ht)

/-- A moment of a history cuts it into what came before, the event and what came after. -/
theorem exists_of_moments_eq {events : List Event} {before after : List Moment} {t : Moment}
    (h : m.moments events = before ++ t :: after) :
    ∃ earlier later, events = earlier ++ t.event :: later ∧ before = m.moments earlier ∧
      t.machine = m.run earlier ∧ after = t.after.moments later := by
  induction before generalizing m events with
  | nil =>
    cases events with
    | nil => cases h
    | cons event later =>
      obtain ⟨rfl, rfl⟩ := List.cons.inj h
      exact ⟨[], later, rfl, rfl, rfl, rfl⟩
  | cons first before ih =>
    cases events with
    | nil => cases h
    | cons event events =>
      obtain ⟨rfl, hrest⟩ := List.cons.inj h
      obtain ⟨earlier, later, rfl, rfl, hmachine, hafter⟩ := ih hrest
      exact ⟨event :: earlier, later, rfl, rfl, hmachine, hafter⟩

/-- A program that does not fit is not loaded, and nothing happens. -/
theorem apply_load_of_not_restarts {program : List UInt8}
    (h : ¬ (Event.load program).restarts = true) : m.apply (.load program) = m := by
  rw [Event.restarts_load_iff m] at h
  rw [apply]
  split
  · rename_i loaded hload
    exact absurd ⟨loaded, hload⟩ h
  · rfl

/-- **What is preserved at every moment of a kind is preserved by every history of such moments.** -/
theorem run_of_moments {P : Machine → Prop} {Q : Moment → Prop}
    (step : ∀ t : Moment, Q t → P t.machine → P t.after) (h : P m) (events : List Event)
    (hQ : ∀ t ∈ m.moments events, Q t) : P (m.run events) := by
  induction events generalizing m with
  | nil => exact h
  | cons event events ih =>
    rw [moments_cons, List.forall_mem_cons] at hQ
    rw [run_cons]
    exact ih (step ⟨m, event⟩ hQ.1 h) hQ.2

/-- The same for what is preserved by every event of a kind. -/
theorem run_of_events {P : Machine → Prop} {Q : Event → Prop}
    (step : ∀ m event, Q event → P m → P (m.apply event)) (h : P m) {events : List Event}
    (hQ : ∀ event ∈ events, Q event) : P (m.run events) :=
  run_of_moments (Q := fun t ↦ Q t.event) (fun t ↦ step t.machine t.event) h events
    fun _ ht ↦ hQ _ (event_mem_of_mem_moments ht)

/-- What is preserved at every moment of a kind holds of every machine on the way. -/
theorem machine_of_mem_moments {P : Machine → Prop} {Q : Moment → Prop}
    (step : ∀ t : Moment, Q t → P t.machine → P t.after) (h : P m) {events : List Event}
    (hQ : ∀ t ∈ m.moments events, Q t) : ∀ t ∈ m.moments events, P t.machine := by
  induction events generalizing m with
  | nil => exact nofun
  | cons event events ih =>
    rw [moments_cons, List.forall_mem_cons] at hQ ⊢
    exact ⟨h, ih (step ⟨m, event⟩ hQ.1 h) hQ.2⟩

end Machine

end ChipEight
