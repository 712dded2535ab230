import ChipEight.Pacer
import ChipEight.Proofs.Machine.Moments

/-!
# How time passes

An update is computed with its work laid out beforehand: so many whole slices, and in each of them so
many cycles at most. Said without that plan it is two **loops**. As long as time remains, a slice of it
passes (`Elapses`), and as long as a cycle is due in a slice, it is made (`Drains`). Nothing in the loops
says how often they go round; that they end is what has to be shown, and it holds because a slice is
never empty and the instruction clock loses a period, which is at least one nanosecond, with every
cycle.

What is shown of an update afterwards is shown by following the loops: once for the start of a slice,
where the timers may tick, and once for a cycle.

**Main statements**: `Pacer.elapses_update` and `Pacer.elapses_iff`, that an update is what the loops
come to, and the inductions `Drains.preserves` and `Elapses.preserves`.
-/

namespace ChipEight

namespace Pacer

/-- Whether what a cycle comes to stops the instruction clock: a fault does, and a wait for a key. -/
def stopsClock : Except Fault Signal → Bool
  | .error _ | .ok .waitingForKey => true
  | .ok .proceed | .ok .displayChanged => false

theorem tickPeriod_pos : 0 < tickPeriod := by decide

/-- However fast a machine is, its cycles are some time apart. -/
theorem period_pos (p : Pacer) : 0 < p.period := Nat.le_max_left 1 _

end Pacer

namespace Progress

variable {β : Type} {watch : β → Move → β} {period d : Nat} {s t : Progress β}

/-! ### What one step does -/

/-- The start of a slice: either the timers tick, or there is no whole period yet. -/
theorem passTicks_cases (watch : β → Move → β) (d : Nat) (s : Progress β) :
    (Pacer.tickPeriod ≤ s.pacer.tickClock + d ∧ s.passTicks watch d =
        { s with
          pacer.machine := s.pacer.machine.tick
          pacer.tickClock := s.pacer.tickClock + d - Pacer.tickPeriod
          seen := watch s.seen .tick }) ∨
      (s.pacer.tickClock + d < Pacer.tickPeriod ∧ s.passTicks watch d =
        { s with pacer.tickClock := s.pacer.tickClock + d }) := by
  rcases Nat.lt_or_ge (s.pacer.tickClock + d) Pacer.tickPeriod with hlt | hge
  · exact .inr ⟨hlt, if_neg (Nat.not_le.2 hlt)⟩
  · exact .inl ⟨hge, if_pos hge⟩

theorem fault_passTicks : (s.passTicks watch d).fault = s.fault := by
  rcases s.passTicks_cases watch d with ⟨-, h⟩ | ⟨-, h⟩ <;> rw [h]

/-- A cycle takes a period off the clock, or empties it; the first fault is kept. -/
theorem makeCycle_eq (watch : β → Move → β) (period : Nat) (s : Progress β) :
    s.makeCycle watch period =
      { pacer :=
          { machine := s.pacer.machine.cycle.machine
            cycleClock :=
              if Pacer.stopsClock s.pacer.machine.cycle.outcome then 0
              else s.pacer.cycleClock - period
            tickClock := s.pacer.tickClock }
        fault := s.pacer.machine.cycle.failure?.or s.fault
        seen := watch s.seen
          (.cycle s.pacer.machine.cycle.outcome s.pacer.machine.cycle.journal) } := by
  obtain ⟨⟨machine, cycleClock, tickClock⟩, fault, seen⟩ := s
  simp only [makeCycle]
  generalize machine.cycle = made
  obtain ⟨_ | (_ | _ | _), journal, next⟩ := made <;> rfl

theorem cycleClock_makeCycle_le (watch : β → Move → β) (period : Nat) (s : Progress β) :
    (s.makeCycle watch period).pacer.cycleClock ≤ s.pacer.cycleClock - period := by
  rw [makeCycle_eq]
  dsimp only
  split
  · exact Nat.zero_le _
  · exact Nat.le_refl _

/-! ### The cycles of a slice -/

/-- What the cycles of a slice come to, made one after the other as long as one is due. -/
inductive Drains (watch : β → Move → β) (period : Nat) : Progress β → Progress β → Prop where
  | rest {s : Progress β} (h : s.pacer.cycleClock < period) : Drains watch period s s
  | due {s t : Progress β} (h : period ≤ s.pacer.cycleClock)
      (later : Drains watch period (s.makeCycle watch period) t) : Drains watch period s t

/-- The clock that remains holds no whole period. -/
theorem Drains.cycleClock_lt (h : Drains watch period s t) : t.pacer.cycleClock < period := by
  induction h with
  | rest h => exact h
  | due _ _ ih => exact ih

/-- The loop decides at every turn whether it goes on, so it comes to one thing only. -/
theorem Drains.unique {u : Progress β} (h : Drains watch period s t) (h' : Drains watch period s u) :
    t = u := by
  induction h with
  | rest hrest =>
    cases h' with
    | rest => rfl
    | due hdue => exact absurd hrest (Nat.not_lt.2 hdue)
  | due hdue _ ih =>
    cases h' with
    | rest hrest => exact absurd hrest (Nat.not_lt.2 hdue)
    | due _ later => exact ih later

/-- **What a cycle that is due preserves, all cycles of a slice preserve.** -/
theorem Drains.preserves {P : Progress β → Prop}
    (step : ∀ s, period ≤ s.pacer.cycleClock → P s → P (s.makeCycle watch period))
    (h : Drains watch period s t) (start : P s) : P t := by
  induction h with
  | rest => exact start
  | due hdue _ ih => exact ih (step _ hdue start)

/-- **The cycles of a slice come to an end**: each takes a period off the clock at least. -/
theorem drains_makeCycles (hperiod : 0 < period) {limit : Nat}
    (h : s.pacer.cycleClock / period ≤ limit) :
    Drains watch period s (makeCycles watch period s limit) := by
  induction limit generalizing s with
  | zero => exact .rest ((Nat.div_eq_zero_iff_lt hperiod).1 (Nat.le_zero.1 h))
  | succ limit ih =>
    rw [makeCycles]
    split
    · rename_i hdue
      refine .due hdue (ih ?_)
      have hless := Nat.sub_mul_div s.pacer.cycleClock period 1
      rw [Nat.mul_one] at hless
      have hclock := Nat.div_le_div_right (c := period) (cycleClock_makeCycle_le watch period s)
      omega
    · rename_i hrest
      exact .rest (Nat.lt_of_not_le hrest)

/-! ### The slices of an update -/

/-- What a slice of `d` nanoseconds comes to: the timers first, and then the cycles that are due,
unless a cycle of the same update has failed. -/
inductive Slice (watch : β → Move → β) (d : Nat) : Progress β → Progress β → Prop where
  | stopped {s : Progress β} (h : s.fault ≠ none) : Slice watch d s (s.passTicks watch d)
  | running {s t : Progress β} (h : s.fault = none)
      (cycles : Drains watch (s.passTicks watch d).pacer.period
        { s.passTicks watch d with
          pacer.cycleClock := (s.passTicks watch d).pacer.cycleClock + d } t) :
      Slice watch d s t

theorem Slice.unique {u : Progress β} (h : Slice watch d s t) (h' : Slice watch d s u) : t = u := by
  cases h with
  | stopped hfault =>
    cases h' with
    | stopped => rfl
    | running hnone => exact absurd hnone hfault
  | running hnone cycles =>
    cases h' with
    | stopped hfault => exact absurd hnone hfault
    | running _ cycles' => exact cycles.unique cycles'

theorem drains_passCycles (h : s.fault = none) :
    Drains watch s.pacer.period { s with pacer.cycleClock := s.pacer.cycleClock + d }
      (s.passCycles watch d) := by
  obtain ⟨pacer, fault, seen⟩ := s
  obtain rfl : fault = none := h
  exact drains_makeCycles pacer.period_pos (Nat.le_refl _)

theorem slice_pass (watch : β → Move → β) (d : Nat) (s : Progress β) :
    Slice watch d s (s.pass watch d) := by
  have hfault : (s.passTicks watch d).fault = s.fault := fault_passTicks
  rcases h : s.fault with - | fault
  · exact .running h (drains_passCycles (hfault.trans h))
  · have hpass : s.pass watch d = s.passTicks watch d := by
      rw [pass, passCycles, hfault, h]
    rw [hpass]
    exact .stopped (by rw [h]; exact Option.some_ne_none fault)

/-- What a duration comes to: slices of a timer period, the last one shorter, as long as time
remains. -/
inductive Elapses (watch : β → Move → β) : Nat → Progress β → Progress β → Prop where
  | done {s : Progress β} : Elapses watch 0 s s
  | slice {remaining : Nat} {s t u : Progress β} (h : 0 < remaining)
      (first : Slice watch (min remaining Pacer.tickPeriod) s t)
      (later : Elapses watch (remaining - min remaining Pacer.tickPeriod) t u) :
      Elapses watch remaining s u

theorem Elapses.unique {remaining : Nat} {u : Progress β} (h : Elapses watch remaining s t)
    (h' : Elapses watch remaining s u) : t = u := by
  induction h with
  | done =>
    cases h' with
    | done => rfl
    | slice hpos => exact absurd hpos (Nat.lt_irrefl 0)
  | slice hpos first _ ih =>
    cases h' with
    | done => exact absurd hpos (Nat.lt_irrefl 0)
    | slice _ first' later' =>
      obtain rfl := first.unique first'
      exact ih later'

/-- **What every slice preserves, with the time that has elapsed, is preserved by every duration.** -/
theorem Elapses.preserves {P : Nat → Progress β → Prop}
    (step : ∀ (elapsed d : Nat) (s t : Progress β), d ≤ Pacer.tickPeriod → Slice watch d s t →
      P elapsed s → P (elapsed + d) t)
    {remaining : Nat} (h : Elapses watch remaining s t) (elapsed : Nat) (start : P elapsed s) :
    P (elapsed + remaining) t := by
  induction h generalizing elapsed with
  | done => exact start
  | @slice remaining s t u _ first _ ih =>
    have hlater := ih _ (step elapsed _ s t (Nat.min_le_right _ _) first start)
    rwa [Nat.add_assoc, Nat.add_sub_cancel' (Nat.min_le_left _ _)] at hlater

end Progress

namespace Pacer

variable {β : Type}

/-- The first slice of a duration takes a timer period, or all there is. -/
theorem slices_of_pos {duration : Nat} (h : 0 < duration) :
    slices duration = min duration tickPeriod :: slices (duration - min duration tickPeriod) := by
  have hT := tickPeriod_pos
  rcases Nat.lt_or_ge duration tickPeriod with hlt | hge
  · rw [Nat.min_eq_left (Nat.le_of_lt hlt), Nat.sub_self, slices, Nat.div_eq_of_lt hlt,
      Nat.mod_eq_of_lt hlt, if_neg (Nat.ne_of_gt h)]
    rfl
  · rw [Nat.min_eq_right hge, slices, slices, Nat.div_eq_sub_div hT hge, List.replicate_succ,
      List.cons_append, ← Nat.mod_eq_sub_mod hge]

theorem elapses_slices (watch : β → Move → β) (duration : Nat) (s : Progress β) :
    Progress.Elapses watch duration s ((slices duration).foldl (fun s d ↦ s.pass watch d) s) := by
  induction duration using Nat.strongRecOn generalizing s with
  | _ duration ih =>
    rcases Nat.eq_zero_or_pos duration with rfl | h
    · exact .done
    · have hT := tickPeriod_pos
      rw [slices_of_pos h]
      exact .slice h (Progress.slice_pass watch _ s) (ih _ (by omega) _)

/-- **An update is what the loops come to**, so they end. -/
theorem elapses_update (watch : β → Move → β) (seen : β) (p : Pacer) (duration : Nat) :
    Progress.Elapses watch (min duration longest) ⟨p, none, seen⟩ (p.update watch seen duration) := by
  rw [update_eq_foldl]
  exact elapses_slices watch _ _

/-- They come to the update and to nothing else. -/
theorem elapses_iff {watch : β → Move → β} {seen : β} {p : Pacer} {duration : Nat}
    (h : duration ≤ longest) {s : Progress β} :
    Progress.Elapses watch duration ⟨p, none, seen⟩ s ↔ s = p.update watch seen duration := by
  have hloops := elapses_update watch seen p duration
  rw [Nat.min_eq_left h] at hloops
  constructor
  · exact fun hs ↦ hs.unique hloops
  · rintro rfl
    exact hloops

end Pacer

end ChipEight
