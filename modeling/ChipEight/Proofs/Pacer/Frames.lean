import ChipEight.Proofs.Machine.FaultLatch
import ChipEight.Proofs.Machine.Soundness
import ChipEight.Proofs.Pacer.Budget

/-!
# Updates in a row

An update may be cut after any number of whole timer periods: the first part walks through the same
slices as the beginning of the whole, and leaves behind all that the rest of it needs. Two things make
this so. Slices are counted from the beginning of an update, so that a cut anywhere else would end one
of them early. And an update remembers of its past only whether one of its cycles has failed; that is
forgotten at a cut, and so nothing may have failed before it.

What is seen of the parts is put together by `Summary.join`, which adds up what is counted and keeps
what was noticed in either.

A fault ends the cycles of an update, and it is the fault that the machine has latched (`Latched`). So an
update of a machine that has not halted never fails because the machine has halted.

**Main statements**: `update_of_running` and `advance_add`, `fault_advance_ne_halted`.
-/

namespace ChipEight

namespace Summary

/-- What happened in one update and then in another. -/
def join (first second : Summary) : Summary where
  instructions := first.instructions + second.instructions
  timerTicks := first.timerTicks + second.timerTicks
  displayChanged := first.displayChanged || second.displayChanged
  waitingForKey := first.waitingForKey || second.waitingForKey

theorem join_nothing (s : Summary) : s.join nothing = s := by
  simp only [join, nothing, Nat.add_zero, Bool.or_false]

/-- Moves are taken into account one after the other, whichever update they belong to. -/
theorem join_add (first second : Summary) (move : Move) :
    first.join (second.add move) = (first.join second).add move := by
  have count (b : Bool) (x y : Nat) : x + (if b then y + 1 else y) = if b then x + y + 1 else x + y := by
    cases b <;> rfl
  simp only [join, add, count, Bool.or_assoc]

end Summary

/-- The fault of a cycle is what the cycle fails with. -/
theorem Cycle.failure?_eq_some_iff {cycle : Cycle} {fault : Fault} :
    cycle.failure? = some fault ↔ cycle.outcome = .error fault := by
  unfold failure?
  split <;> rename_i h <;> simp [h]

namespace Progress

/-! ### What is made of what was seen -/

section Map

variable {β γ : Type} (f : γ → β) (s : Progress γ)

@[simp] theorem pacer_map : (s.map f).pacer = s.pacer := rfl

@[simp] theorem fault_map : (s.map f).fault = s.fault := rfl

/-- What is made of the summary of an update makes no difference to how it ends. -/
theorem outcome_map (f : Summary → Summary) (s : Progress Summary) :
    (s.map f).outcome = s.outcome.map f := by
  obtain ⟨pacer, fault, seen⟩ := s
  cases fault <;> rfl

end Map

variable {β : Type} {watch : β → Move → β} {s t : Progress β} {fault : Fault} {d : Nat}

/-! ### The fault of an update -/

/-- Slices that pass after a fault do not change it. -/
theorem fault_foldl_of_some (h : s.fault = some fault) (ds : List Nat) :
    (ds.foldl (fun s d ↦ s.pass watch d) s).fault = some fault := by
  induction ds generalizing s with
  | nil => exact h
  | cons d ds ih =>
    have hticks : (s.passTicks watch d).fault = some fault := fault_passTicks.trans h
    rw [List.foldl_cons]
    refine ih ?_
    rw [pass, passCycles, hticks]
    exact hticks

/-- The fault of an update is the one that the machine has latched, and a fault of its program. -/
structure Latched (s : Progress β) : Prop where
  fault_eq : s.fault = s.pacer.machine.fault
  ofProgram : ∀ fault, s.fault = some fault → fault.OfProgram

theorem Latched.passTicks (h : Latched s) (d : Nat) : Latched (s.passTicks watch d) := by
  rcases s.passTicks_cases watch d with ⟨-, hs⟩ | ⟨-, hs⟩ <;> rw [hs] <;>
    exact ⟨h.fault_eq, h.ofProgram⟩

/-- A cycle that fails on a machine that runs latches the fault it fails with. -/
theorem Latched.makeCycle (h : Latched s) (running : s.fault = none) (period : Nat) :
    Latched (s.makeCycle watch period) := by
  have hmachine : s.pacer.machine.fault = none := h.fault_eq.symm.trans running
  have hlatch := Machine.fault_cycle s.pacer.machine
  rw [hmachine, Option.none_or] at hlatch
  rw [makeCycle_eq, running, Option.or_none]
  refine ⟨hlatch.symm, fun fault hfault ↦ ?_⟩
  exact Machine.ofProgram_of_outcome hmachine (Cycle.failure?_eq_some_iff.1 hfault)

/-- No cycle is made after a fault, as the clock is empty then. -/
theorem Latched.slice (h : Latched s) (hslice : Slice watch d s t) : Latched t := by
  cases hslice with
  | stopped => exact h.passTicks d
  | running hnone cycles =>
    have hticks : Latched (s.passTicks watch d) := h.passTicks d
    have hrunning : (s.passTicks watch d).fault = none := fault_passTicks.trans hnone
    have hperiod := (s.passTicks watch d).pacer.period_pos
    refine (cycles.preserves (P := fun s ↦ Latched s ∧ (s.fault = none ∨ s.pacer.cycleClock = 0))
      (fun u hdue hu ↦ ?_) ⟨⟨hticks.fault_eq, hticks.ofProgram⟩, .inl hrunning⟩).1
    obtain ⟨hlatched, hgoing⟩ := hu
    have hnone : u.fault = none := hgoing.resolve_right (by omega)
    refine ⟨hlatched.makeCycle hnone _, ?_⟩
    rw [makeCycle_eq, hnone, Option.or_none]
    by_cases hstop : Pacer.stopsClock u.pacer.machine.cycle.outcome
    · exact .inr (if_pos hstop)
    · exact .inl (Cycle.failure?_eq_none hstop)

end Progress

namespace Pacer

variable {β : Type} {p : Pacer} {watch : β → Move → β} {seen : β} {fault : Fault} {a b : Nat}

/-- **An update of a machine that has not halted fails with the fault that the machine has latched**, and
that is never that it has halted. -/
theorem latched_update (running : p.machine.fault = none) (duration : Nat) :
    Progress.Latched (p.update watch seen duration) :=
  (elapses_update watch seen p duration).preserves (P := fun _ s ↦ Progress.Latched s)
    (fun _ _ _ _ _ hslice h ↦ h.slice hslice) 0 ⟨running.symm, nofun⟩

theorem fault_advance_ne_halted (running : p.machine.fault = none) (duration : Nat) :
    (p.advance duration).fault ≠ some .halted := fun h ↦
  ((latched_update running duration).ofProgram _ h).1 rfl

/-! ### Cuts after whole periods -/

/-- The slices of a duration begin with its whole timer periods. -/
theorem slices_add (ha : tickPeriod ∣ a) (b : Nat) : slices (a + b) = slices a ++ slices b := by
  obtain ⟨k, rfl⟩ := ha
  rw [slices, slices, slices, Nat.mul_add_div tickPeriod_pos, Nat.mul_add_mod,
    Nat.mul_div_cancel_left k tickPeriod_pos, Nat.mul_mod_right, if_pos rfl, List.append_nil,
    List.replicate_add, List.append_assoc]

/-- An update begins with its whole timer periods, and then walks through the slices of the rest. -/
theorem update_add (ha : tickPeriod ∣ a) (h : a + b ≤ longest) :
    p.update watch seen (a + b)
      = (slices b).foldl (fun s d ↦ s.pass watch d) (p.update watch seen a) := by
  rw [update_eq_foldl, update_eq_foldl, Nat.min_eq_left h,
    Nat.min_eq_left (Nat.le_of_add_right_le h), slices_add ha, List.foldl_append]

/-- **A fault in the first part of an update is the fault of the whole.** -/
theorem fault_update_add (ha : tickPeriod ∣ a) (h : a + b ≤ longest)
    (failed : (p.update watch seen a).fault = some fault) :
    (p.update watch seen (a + b)).fault = some fault := by
  rw [update_add ha h]
  exact Progress.fault_foldl_of_some failed _

/-- **An update may be cut after whole timer periods if nothing has failed in them**: what is left of
the duration is an update of its own, with what has been seen already. -/
theorem update_of_running (ha : tickPeriod ∣ a) (h : a + b ≤ longest)
    (running : (p.update watch seen a).fault = none) :
    let first := p.update watch seen a
    p.update watch seen (a + b) = first.pacer.update watch first.seen b := by
  rw [update_add ha h]
  generalize p.update watch seen a = first at running
  obtain ⟨q, fault, seen⟩ := first
  obtain rfl : fault = none := running
  show (slices b).foldl (fun s d ↦ s.pass watch d) ⟨q, none, seen⟩ = q.update watch seen b
  rw [update_eq_foldl, Nat.min_eq_left (Nat.le_of_add_left_le h)]

/-- The summaries of the two parts are joined. -/
theorem advance_add (ha : tickPeriod ∣ a) (h : a + b ≤ longest)
    (running : (p.advance a).fault = none) :
    let first := p.advance a
    p.advance (a + b) = (first.pacer.advance b).map first.seen.join := by
  intro first
  have hmap : first.pacer.update Summary.add (first.seen.join .nothing) b
      = (first.pacer.advance b).map first.seen.join :=
    first.pacer.update_map (Summary.join_add first.seen) .nothing b
  rw [Summary.join_nothing] at hmap
  exact (update_of_running ha h running).trans hmap

end Pacer

end ChipEight
