import ChipEight.Proofs.Pacer.Passing

/-!
# What is asked of a pacer

Whoever holds a pacer makes **requests** of it: that time passes, that a program is loaded or the machine
reset, both with the clocks started anew, or that something happens to the machine alone, which leaves
the clocks as they are. A single cycle, a single tick and a key are of the last kind.

A request is a **history** of the machine inside. An update makes ticks and cycles in an order that the
two clocks decide between them, and that order is all there is to it: the machine afterwards is the
machine the history leads to (`machine_run`). So whatever is known of histories is known of a machine
that is kept in time, and the pacer adds only how many of its events there are, and where they stand.

**Main statement**: `Pacer.machine_run`.
-/

namespace ChipEight

/-- What a move is to the machine. -/
def Move.event : Move → Event
  | .tick => .tick
  | .cycle .. => .cycle

namespace Progress

variable {m : Machine} {d period : Nat} {s t : Progress (List Event)}

/-- Remember what happens to the machine, in order. -/
def record (events : List Event) (move : Move) : List Event := events ++ [move.event]

/-- The machine has become what the events remembered make of another one. -/
def Follows (m : Machine) (s : Progress (List Event)) : Prop := s.pacer.machine = m.run s.seen

theorem Follows.passTicks (h : Follows m s) (d : Nat) : Follows m (s.passTicks record d) := by
  rcases s.passTicks_cases record d with ⟨-, hs⟩ | ⟨-, hs⟩
  · rw [hs]
    show s.pacer.machine.tick = m.run (s.seen ++ [.tick])
    rw [Machine.run_append, ← h]
    rfl
  · rw [hs]
    exact h

theorem Follows.makeCycle (h : Follows m s) (period : Nat) :
    Follows m (s.makeCycle record period) := by
  rw [makeCycle_eq]
  show s.pacer.machine.cycle.machine = m.run (s.seen ++ [.cycle])
  rw [Machine.run_append, ← h]
  rfl

theorem Follows.slice (h : Follows m s) (hslice : Slice record d s t) : Follows m t := by
  cases hslice with
  | stopped => exact h.passTicks d
  | running _ cycles =>
    have hticks : Follows m (s.passTicks record d) := h.passTicks d
    exact cycles.preserves (P := Follows m) (fun _ _ hs ↦ hs.makeCycle _) hticks

end Progress

/-- Something asked of a pacer. -/
inductive Request where
  | update (duration : Nat)
  | load (program : List UInt8)
  | reset
  | machine (event : Event)
  deriving DecidableEq, Repr

namespace Request

/-- The time that is to pass. -/
def duration : Request → Nat
  | .update duration => duration
  | .load _ | .reset | .machine _ => 0

/-- The time that passes in a list of requests. -/
def total : List Request → Nat
  | [] => 0
  | request :: requests => request.duration + total requests

/-- Whether time goes on with a request: the clocks are not set back, and no duration is cut short. -/
def KeepsTime : Request → Prop
  | .update duration => duration ≤ Pacer.longest
  | .load _ | .reset => False
  | .machine _ => True

instance (request : Request) : Decidable request.KeepsTime :=
  match request with
  | .update duration => inferInstanceAs (Decidable (duration ≤ Pacer.longest))
  | .load _ | .reset => instDecidableFalse
  | .machine _ => instDecidableTrue

end Request

namespace Pacer

variable (p : Pacer)

/-- What happens to the machine while a duration passes, in order. -/
def events (duration : Nat) : List Event := (p.moves duration).map Move.event

/-- The pacer after a request. A program that is refused changes nothing. -/
def apply : Request → Pacer
  | .update duration => (p.advance duration).pacer
  | .load program =>
    match p.load program with
    | .ok loaded => loaded
    | .error _ => p
  | .reset => p.reset
  | .machine event => p.onMachine (p.machine.apply event)

/-- What a request does to the machine. -/
def eventsOf : Request → List Event
  | .update duration => p.events duration
  | .load program => [.load program]
  | .reset => [.reset]
  | .machine event => [event]

/-- The pacer after a list of requests. -/
def run (requests : List Request) : Pacer := requests.foldl apply p

/-- What a list of requests does to the machine. -/
def history : Pacer → List Request → List Event
  | _, [] => []
  | p, request :: requests => p.eventsOf request ++ (p.apply request).history requests

@[simp] theorem run_nil : p.run [] = p := rfl

@[simp] theorem run_cons (request : Request) (requests : List Request) :
    p.run (request :: requests) = (p.apply request).run requests := rfl

/-! ### An update is a history -/

/-- An update makes ticks and cycles, and nothing else. -/
theorem mem_events {duration : Nat} {event : Event} (h : event ∈ p.events duration) :
    event = .tick ∨ event = .cycle := by
  obtain ⟨move, -, rfl⟩ := List.mem_map.1 h
  cases move with
  | tick => exact .inl rfl
  | cycle => exact .inr rfl

/-- An update that remembers what happens to the machine, after what is remembered already, is the
update. -/
theorem update_record (seen : List Event) (duration : Nat) :
    p.update Progress.record seen duration
      = ⟨(p.advance duration).pacer, (p.advance duration).fault, seen ++ p.events duration⟩ := by
  have hseen : ∀ (moves : List Move) (events : List Event),
      moves.foldl Progress.record events = events ++ moves.map Move.event := by
    intro moves
    induction moves with
    | nil => exact fun events ↦ (List.append_nil events).symm
    | cons move moves ih =>
      intro events
      rw [List.foldl_cons, ih, Progress.record, List.append_assoc]
      rfl
  obtain ⟨hpacer, hfault⟩ := p.update_agree Progress.record seen duration
  have hevents := (p.seen_update Progress.record seen duration).trans (hseen _ _)
  rw [← hpacer, ← hfault, events, ← hevents]

/-- An update is what the loops come to, with what happens to the machine remembered. -/
theorem elapses_events (seen : List Event) (duration : Nat) :
    Progress.Elapses Progress.record (min duration longest) ⟨p, none, seen⟩
      ⟨(p.advance duration).pacer, (p.advance duration).fault, seen ++ p.events duration⟩ := by
  rw [← update_record]
  exact elapses_update Progress.record seen p duration

/-- The machine after an update is the one its events lead to. -/
theorem machine_advance (duration : Nat) :
    (p.advance duration).pacer.machine = p.machine.run (p.events duration) :=
  (p.elapses_events [] duration).preserves (P := fun _ s ↦ Progress.Follows p.machine s)
    (fun _ _ _ _ _ hslice h ↦ h.slice hslice) 0 rfl

theorem machine_apply (request : Request) :
    (p.apply request).machine = p.machine.run (p.eventsOf request) := by
  cases request with
  | update duration => exact p.machine_advance duration
  | load program =>
    rw [apply, eventsOf, Machine.run_cons, Machine.run_nil, Machine.apply, load]
    cases p.machine.load program <;> rfl
  | reset | machine => rfl

/-- **What is asked of a pacer is a history of its machine.** -/
theorem machine_run (requests : List Request) :
    (p.run requests).machine = p.machine.run (p.history requests) := by
  induction requests generalizing p with
  | nil => rfl
  | cons request requests ih =>
    rw [run_cons, ih, machine_apply, history, Machine.run_append]

end Pacer

end ChipEight
