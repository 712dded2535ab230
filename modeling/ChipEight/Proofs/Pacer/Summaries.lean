import ChipEight.Proofs.Pacer.Budget
import ChipEight.Proofs.Pacer.Ticks

/-!
# What a summary says

An update remembers moves, and a move is what a machine makes of a moment: a tick, or a cycle with what
comes of it. So the moves of an update are the **moments** of its history, one for each
(`moves_eq_map_moments`), and whatever an update sums up is a fact about that history. The summary counts
the cycles that were carried to their end and the ticks, and it says whether some cycle changed the
display or found the machine waiting (`seen_advance`).

Two machines whose histories come to the same are therefore summed up alike, however different they are
inside.

**Main statements**: `moves_eq_map_moments` and `seen_advance`.
-/

namespace ChipEight

/-- What a moment is to an update: a cycle and what comes of it, or a tick. -/
def Moment.move (t : Moment) : Move :=
  match t.event with
  | .cycle => .cycle t.machine.cycle.outcome t.machine.cycle.journal
  | .tick | .key .. | .load _ | .reset => .tick

namespace Machine

variable {m : Machine}

/-- Every cycle comes to something, and nothing else does. -/
theorem length_outcomes (m : Machine) (events : List Event) :
    (m.outcomes events).length = events.count .cycle := by
  induction events generalizing m with
  | nil => rfl
  | cons event events ih =>
    rw [outcomes_cons, List.length_append, ih, List.count_cons, Nat.add_comm]
    cases event <;> rfl

end Machine

namespace Progress

variable {m : Machine} {d : Nat} {s t : Progress (List Move)}

/-- Remember the moves, in order. -/
def list (moves : List Move) (move : Move) : List Move := moves ++ [move]

/-- The moves remembered are the moments of a history, and the machine is the one it leads to. -/
structure Told (m : Machine) (s : Progress (List Move)) : Prop where
  machine_eq : s.pacer.machine = m.run (s.seen.map Move.event)
  moves_eq : (m.moments (s.seen.map Move.event)).map Moment.move = s.seen

/-- One more moment is one more move. -/
theorem Told.concat (h : Told m s) (move : Move)
    (hmove : Moment.move ⟨s.pacer.machine, move.event⟩ = move)
    (ht : t.pacer.machine = s.pacer.machine.apply move.event) (hseen : t.seen = s.seen ++ [move]) :
    Told m t := by
  constructor
  · rw [ht, hseen, List.map_append, Machine.run_append, ← h.machine_eq]
    rfl
  · rw [hseen, List.map_append, Machine.moments_append, List.map_append, h.moves_eq, ← h.machine_eq]
    exact congrArg (fun last ↦ s.seen ++ [last]) hmove

theorem Told.passTicks (h : Told m s) (d : Nat) : Told m (s.passTicks list d) := by
  rcases s.passTicks_cases list d with ⟨-, hs⟩ | ⟨-, hs⟩ <;> rw [hs]
  · exact h.concat .tick rfl rfl rfl
  · exact ⟨h.machine_eq, h.moves_eq⟩

theorem Told.makeCycle (h : Told m s) (period : Nat) : Told m (s.makeCycle list period) := by
  rw [makeCycle_eq]
  exact h.concat (.cycle s.pacer.machine.cycle.outcome s.pacer.machine.cycle.journal) rfl rfl rfl

theorem Told.slice (h : Told m s) (hslice : Slice list d s t) : Told m t := by
  cases hslice with
  | stopped => exact h.passTicks d
  | running _ cycles =>
    have hticks := h.passTicks d
    exact cycles.preserves (P := Told m) (fun _ _ hs ↦ hs.makeCycle _)
      ⟨hticks.machine_eq, hticks.moves_eq⟩

end Progress

/-- The summary of a history: how many cycles were carried to their end, how often the timers ticked,
and whether some cycle changed the display or found the machine waiting. -/
def Summary.ofHistory (m : Machine) (events : List Event) : Summary where
  instructions := (m.outcomes events).countP fun outcome ↦ (Move.cycle outcome []).isInstruction
  timerTicks := events.count .tick
  displayChanged := (m.outcomes events).any fun outcome ↦ (Move.cycle outcome []).changesDisplay
  waitingForKey := (m.outcomes events).any fun outcome ↦ (Move.cycle outcome []).waits

namespace Pacer

variable (p : Pacer)

/-- **The moves of an update are the moments of its history.** -/
theorem moves_eq_map_moments (duration : Nat) :
    p.moves duration = (p.machine.moments (p.events duration)).map Moment.move := by
  have htold : Progress.Told p.machine (p.update Progress.list [] duration) :=
    (elapses_update Progress.list [] p duration).preserves
      (P := fun _ s ↦ Progress.Told p.machine s) (fun _ _ _ _ _ hslice h ↦ h.slice hslice) 0 ⟨rfl, rfl⟩
  have hlist : ∀ moves before : List Move, moves.foldl Progress.list before = before ++ moves := by
    intro moves
    induction moves with
    | nil => exact fun before ↦ (List.append_nil before).symm
    | cons move moves ih =>
      intro before
      rw [List.foldl_cons, ih, Progress.list, List.append_assoc, List.singleton_append]
  have hseen : (p.update Progress.list [] duration).seen = p.moves duration :=
    (p.seen_update Progress.list [] duration).trans (hlist _ _)
  have hmoves := htold.moves_eq
  rw [hseen] at hmoves
  exact hmoves.symm

/-- A summary counts the cycles of a kind that it is told about. -/
theorem countP_moves {kind : Move → Bool} (htick : kind .tick = false)
    (hjournal : ∀ outcome journal, kind (.cycle outcome journal) = kind (.cycle outcome []))
    (duration : Nat) :
    (p.moves duration).countP kind
      = (p.machine.outcomes (p.events duration)).countP fun outcome ↦ kind (.cycle outcome []) := by
  rw [moves_eq_map_moments, Machine.outcomes, List.countP_map, List.countP_filterMap]
  refine List.countP_congr fun t _ ↦ ?_
  obtain ⟨m, event⟩ := t
  cases event with
  | cycle => exact iff_of_eq (congrArg (· = true) (hjournal _ _))
  | tick | key | load | reset =>
    exact iff_of_false (by simpa [Moment.move] using htick) Bool.false_ne_true

/-- **An update sums up its history.** -/
theorem seen_advance (duration : Nat) :
    (p.advance duration).seen = Summary.ofHistory p.machine (p.events duration) := by
  have hany : ∀ {kind : Move → Bool}, kind .tick = false →
      (∀ outcome journal, kind (.cycle outcome journal) = kind (.cycle outcome [])) →
        (p.moves duration).any kind
          = (p.machine.outcomes (p.events duration)).any fun outcome ↦ kind (.cycle outcome []) := by
    intro kind htick hjournal
    have hcount := p.countP_moves htick hjournal duration
    rw [Bool.eq_iff_iff, List.any_eq_true, List.any_eq_true, ← List.countP_pos_iff,
      ← List.countP_pos_iff, hcount]
  have hticks := p.timerTicks_advance duration
  rw [advance, seen_update, Summary.foldl_add] at hticks ⊢
  rw [Summary.ofHistory, Summary.mk.injEq]
  refine ⟨?_, hticks, ?_, ?_⟩
  · show 0 + (p.moves duration).countP Move.isInstruction = _
    rw [Nat.zero_add]
    exact p.countP_moves rfl (fun outcome _ ↦ by rcases outcome with _ | (_ | _ | _) <;> rfl) duration
  · show (false || (p.moves duration).any Move.changesDisplay) = _
    rw [Bool.false_or]
    exact hany rfl fun outcome _ ↦ by rcases outcome with _ | (_ | _ | _) <;> rfl
  · show (false || (p.moves duration).any Move.waits) = _
    rw [Bool.false_or]
    exact hany rfl fun outcome _ ↦ by rcases outcome with _ | (_ | _ | _) <;> rfl

/-- An instruction takes a cycle. -/
theorem instructions_advance_le (duration : Nat) :
    (p.advance duration).seen.instructions ≤ (p.events duration).count .cycle := by
  rw [seen_advance, ← p.machine.length_outcomes]
  exact List.countP_le_length

/-- As long as no cycle stops the clock, every cycle is an instruction. -/
theorem instructions_advance {duration : Nat} (h : p.machine.Unstopped (p.events duration)) :
    (p.advance duration).seen.instructions = (p.events duration).count .cycle := by
  rw [seen_advance, ← p.machine.length_outcomes]
  refine List.countP_eq_length.2 fun outcome hmem ↦ ?_
  have hgoes := h outcome hmem
  rcases outcome with _ | (_ | _ | _)
  · exact absurd rfl hgoes
  · rfl
  · rfl
  · exact absurd rfl hgoes

end Pacer

end ChipEight
