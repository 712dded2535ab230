import ChipEight.Proofs.Pacer.Requests

/-!
# The timer clock

The timer clock gives away nothing and loses nothing: what it shows and the ticks that were made, a
period each, always add up to what it showed at first and the time that has passed since (`Ticked`). It
does not look at the machine, so that balance is the same whether the program runs, waits or has
failed, and the division that it comes down to is the same however the time is cut into updates.

A slice makes one tick at most. It need not make more, since the clock never shows a whole period and a
slice is no longer than one.

**Main statement**: `run_new_ticks`.
-/

namespace ChipEight

namespace Progress

variable {β : Type} {watch : β → Move → β} {p : Pacer} {elapsed d : Nat}

/-! ### One tick in a slice -/

theorem tickClock_passTicks_lt {s : Progress β} (hd : d ≤ Pacer.tickPeriod)
    (h : s.pacer.tickClock < Pacer.tickPeriod) :
    (s.passTicks watch d).pacer.tickClock < Pacer.tickPeriod := by
  rcases s.passTicks_cases watch d with ⟨-, hs⟩ | ⟨hlt, hs⟩
  · rw [hs]
    show s.pacer.tickClock + d - Pacer.tickPeriod < Pacer.tickPeriod
    omega
  · rw [hs]
    exact hlt

/-- No cycle touches the timer clock. -/
theorem tickClock_makeCycle (watch : β → Move → β) (period : Nat) (s : Progress β) :
    (s.makeCycle watch period).pacer.tickClock = s.pacer.tickClock := by
  rw [makeCycle_eq]

theorem Slice.tickClock_lt {s t : Progress β} (hslice : Slice watch d s t)
    (hd : d ≤ Pacer.tickPeriod) (h : s.pacer.tickClock < Pacer.tickPeriod) :
    t.pacer.tickClock < Pacer.tickPeriod := by
  cases hslice with
  | stopped => exact tickClock_passTicks_lt hd h
  | running _ cycles =>
    refine cycles.preserves (P := fun s ↦ s.pacer.tickClock < Pacer.tickPeriod)
      (fun s _ hs ↦ ?_) (tickClock_passTicks_lt hd h)
    rw [tickClock_makeCycle]
    exact hs

/-- After any number of slices the timer clock shows less than a period. -/
theorem tickClock_foldl_lt {ds : List Nat} (hd : ∀ d ∈ ds, d ≤ Pacer.tickPeriod) {s : Progress β}
    (h : s.pacer.tickClock < Pacer.tickPeriod) :
    (ds.foldl (fun s d ↦ s.pass watch d) s).pacer.tickClock < Pacer.tickPeriod := by
  induction ds generalizing s with
  | nil => exact h
  | cons d ds ih =>
    rw [List.forall_mem_cons] at hd
    exact ih hd.2 ((slice_pass watch d s).tickClock_lt hd.1 h)

/-! ### The balance -/

/-- What the timer clock shows and the ticks remembered add up to what it showed at first and the time
that has passed. -/
structure Ticked (p : Pacer) (elapsed : Nat) (s : Progress (List Event)) : Prop where
  balance : s.pacer.tickClock + Pacer.tickPeriod * s.seen.count .tick = p.tickClock + elapsed
  tickClock_lt : s.pacer.tickClock < Pacer.tickPeriod

variable {s t : Progress (List Event)}

theorem Ticked.passTicks (h : Ticked p elapsed s) (hd : d ≤ Pacer.tickPeriod) :
    Ticked p (elapsed + d) (s.passTicks record d) := by
  refine ⟨?_, tickClock_passTicks_lt hd h.tickClock_lt⟩
  have hbalance := h.balance
  rcases s.passTicks_cases record d with ⟨hge, hs⟩ | ⟨-, hs⟩
  · rw [hs]
    show s.pacer.tickClock + d - Pacer.tickPeriod
      + Pacer.tickPeriod * (s.seen ++ [Event.tick]).count .tick = p.tickClock + (elapsed + d)
    rw [List.count_append, List.count_singleton_self, Nat.mul_succ]
    omega
  · rw [hs]
    show s.pacer.tickClock + d + Pacer.tickPeriod * s.seen.count .tick = p.tickClock + (elapsed + d)
    omega

theorem Ticked.makeCycle (h : Ticked p elapsed s) (period : Nat) :
    Ticked p elapsed (s.makeCycle record period) := by
  rw [makeCycle_eq]
  refine ⟨?_, h.tickClock_lt⟩
  show s.pacer.tickClock + Pacer.tickPeriod * (s.seen ++ [Event.cycle]).count .tick
    = p.tickClock + elapsed
  rw [List.count_append]
  exact h.balance

theorem Ticked.slice (h : Ticked p elapsed s) (hd : d ≤ Pacer.tickPeriod)
    (hslice : Slice record d s t) : Ticked p (elapsed + d) t := by
  cases hslice with
  | stopped => exact h.passTicks hd
  | running _ cycles =>
    have hticks := h.passTicks hd
    exact cycles.preserves (P := Ticked p (elapsed + d)) (fun _ _ hs ↦ hs.makeCycle _)
      ⟨hticks.balance, hticks.tickClock_lt⟩

end Progress

namespace Pacer

variable {p : Pacer}

/-- An update as it stands after some of its slices. -/
def walk (p : Pacer) (ds : List Nat) : Progress Summary :=
  ds.foldl (fun s d ↦ s.pass Summary.add d) ⟨p, none, .nothing⟩

/-- The ticks that an update reports are those it makes. -/
theorem timerTicks_advance (p : Pacer) (duration : Nat) :
    (p.advance duration).seen.timerTicks = (p.events duration).count .tick := by
  have hticks : (fun move : Move ↦ move.event == Event.tick) = Move.isTick := by
    funext move
    cases move <;> rfl
  rw [advance, seen_update, Summary.foldl_add, events, List.count, List.countP_map]
  show 0 + (p.moves duration).countP Move.isTick
    = (p.moves duration).countP fun move ↦ move.event == Event.tick
  rw [hticks, Nat.zero_add]

/-- **An update keeps the balance of the timer clock.** -/
theorem ticked_advance (h : p.tickClock < tickPeriod) (duration : Nat) :
    Progress.Ticked p (min duration longest)
      ⟨(p.advance duration).pacer, (p.advance duration).fault, p.events duration⟩ := by
  have hloops := (p.elapses_events [] duration).preserves (P := Progress.Ticked p)
    (fun _ _ _ _ hd hslice h ↦ h.slice hd hslice) 0 ⟨rfl, h⟩
  rwa [Nat.zero_add] at hloops

theorem tickClock_apply_lt (h : p.tickClock < tickPeriod) (request : Request) :
    (p.apply request).tickClock < tickPeriod := by
  cases request with
  | update duration => exact (ticked_advance h duration).tickClock_lt
  | load program =>
    rw [apply, load]
    cases p.machine.load program with
    | error fault => exact h
    | ok loaded => exact tickPeriod_pos
  | reset => exact tickPeriod_pos
  | machine event => exact h

/-- **The timer clock never shows a whole period**, whatever is asked of a pacer. -/
theorem tickClock_run_lt (h : p.tickClock < tickPeriod) (requests : List Request) :
    (p.run requests).tickClock < tickPeriod := by
  induction requests generalizing p with
  | nil => exact h
  | cons request requests ih => exact ih (tickClock_apply_lt h request)

/-- Beside the ticks that the clock makes, the machine ticks when it is told to. -/
theorem ticks_apply (h : p.tickClock < tickPeriod) {request : Request} (keeps : request.KeepsTime) :
    (p.apply request).tickClock + tickPeriod * (p.eventsOf request).count .tick
      = p.tickClock + request.duration + tickPeriod * [request].count (.machine .tick) := by
  cases request with
  | update duration =>
    have hbalance := (ticked_advance h duration).balance
    rwa [Nat.min_eq_left keeps] at hbalance
  | load => exact keeps.elim
  | reset => exact keeps.elim
  | machine event => cases event <;> rfl

/-- **However time is cut into updates, and whatever happens between them, the balance of the timer
clock is the same.** -/
theorem ticks_run (h : p.tickClock < tickPeriod) {requests : List Request}
    (keeps : ∀ request ∈ requests, request.KeepsTime) :
    (p.run requests).tickClock + tickPeriod * (p.history requests).count .tick
      = p.tickClock + Request.total requests + tickPeriod * requests.count (.machine .tick) := by
  induction requests generalizing p with
  | nil => rfl
  | cons request requests ih =>
    rw [List.forall_mem_cons] at keeps
    have hfirst := ticks_apply h keeps.1
    have hlater := ih (tickClock_apply_lt h request) keeps.2
    rw [← List.singleton_append, List.count_append, List.singleton_append, run_cons, history,
      List.count_append, Request.total, Nat.mul_add, Nat.mul_add]
    omega

/-- So the ticks are the whole periods of the time that has passed. -/
theorem count_ticks (h : p.tickClock < tickPeriod) {requests : List Request}
    (keeps : ∀ request ∈ requests, request.KeepsTime) (hnone : .machine .tick ∉ requests) :
    (p.history requests).count .tick = (p.tickClock + Request.total requests) / tickPeriod := by
  have hbalance := ticks_run h keeps
  rw [List.count_eq_zero.2 hnone, Nat.mul_zero, Nat.add_zero] at hbalance
  exact ((Nat.div_mod_unique tickPeriod_pos).2 ⟨hbalance, tickClock_run_lt h requests⟩).1.symm

/-- **The timer clock is exact**, whatever has been asked of a pacer before and whatever its program
does. An update makes a tick for every whole period that the clock then holds and leaves what is over;
it never holds two in one slice. From new clocks on, which a new pacer has, one that was reset and one
that has taken a program, the ticks are those of the total time, however it is cut into updates and
whatever else is done to the machine, unless it is told to tick. -/
theorem run_new_ticks (m : Machine) (requests : List Request) :
    let p := (new m).run requests
    p.tickClock < tickPeriod ∧
      (∀ d ≤ longest,
        let s := p.advance d
        s.pacer.machine = p.machine.run (p.events d) ∧
          (p.events d).count .tick = (p.tickClock + d) / tickPeriod ∧
          s.seen.timerTicks = (p.tickClock + d) / tickPeriod ∧
          s.pacer.tickClock = (p.tickClock + d) % tickPeriod ∧
          s = p.walk (slices d) ∧ ∀ before slice after, slices d = before ++ slice :: after →
            ((p.walk before).pacer.tickClock + slice) / tickPeriod ≤ 1) ∧
      ∀ fresh, fresh = new m ∨ fresh = p.reset ∨ (∃ program, p.load program = .ok fresh) →
        ∀ later : List Request, (∀ request ∈ later, request.KeepsTime) → .machine .tick ∉ later →
          (fresh.run later).machine = fresh.machine.run (fresh.history later) ∧
            (fresh.history later).count .tick = Request.total later / tickPeriod := by
  intro p
  have hp : p.tickClock < tickPeriod := tickClock_run_lt tickPeriod_pos requests
  refine ⟨hp, fun d hd ↦ ?_, fun fresh hfresh later keeps hticks ↦ ⟨machine_run _ _, ?_⟩⟩
  · obtain ⟨hbalance, hlt⟩ := ticked_advance hp d
    rw [Nat.min_eq_left hd] at hbalance
    obtain ⟨hdiv, hmod⟩ := (Nat.div_mod_unique tickPeriod_pos).2 ⟨hbalance, hlt⟩
    refine ⟨p.machine_advance d, hdiv.symm, ?_, hmod.symm, ?_, fun before slice after hsplit ↦ ?_⟩
    · rw [timerTicks_advance, hdiv]
    · rw [advance, update_eq_foldl, Nat.min_eq_left hd]
      rfl
    · have hslices : ∀ d' ∈ slices d, d' ≤ tickPeriod := fun d' hd' ↦ (mem_slices hd').2
      rw [hsplit, List.forall_mem_append, List.forall_mem_cons] at hslices
      have hreached : (p.walk before).pacer.tickClock < tickPeriod :=
        Progress.tickClock_foldl_lt hslices.1 hp
      refine Nat.le_of_lt_succ ((Nat.div_lt_iff_lt_mul tickPeriod_pos).2 ?_)
      omega
  · have hzero : fresh.tickClock = 0 := by
      rcases hfresh with rfl | rfl | ⟨program, hload⟩
      · rfl
      · rfl
      · obtain ⟨loaded, -, rfl⟩ := map_eq_ok_iff.1 hload
        rfl
    have hlt : (fresh.run later).tickClock < tickPeriod :=
      tickClock_run_lt (hzero ▸ tickPeriod_pos) later
    have hbalance := ticks_run (hzero ▸ tickPeriod_pos) keeps
    rw [List.count_eq_zero.2 hticks, Nat.mul_zero, Nat.add_zero, hzero, Nat.zero_add] at hbalance
    exact ((Nat.div_mod_unique tickPeriod_pos).2 ⟨hbalance, hlt⟩).1.symm

/-- A machine fails with the second cycle of an update of fifty milliseconds, and the three ticks that
are due are made all the same. After a reset the clock starts anew, and a period in two parts with a
key between them is one tick. -/
theorem ticks_after_fault :
    let m := (Machine.powerOn { Config.usual with cpuHz := 100 } (.ofSeed 0)).run
      [.load [0x60, 0x05, 0x61, 0x06, 0x51, 0x21]]
    let p := (new m).run [.update 10000000]
    let later : List Request := [.update 16666665, .machine (.key 3 true), .update 1]
    50000000 ≤ longest ∧ (p.advance 50000000).outcome = .error (.invalidInstruction 0x5121) ∧
      p.tickClock = 10000000 ∧ (p.events 50000000).count .tick = 3 ∧
      (p.advance 50000000).pacer.tickClock = 10000002 ∧
      (∀ request ∈ later, request.KeepsTime) ∧ .machine .tick ∉ later ∧
        (p.reset.history later).count .tick = 1 := by
  intro m p later
  obtain ⟨-, hupdate, hfresh⟩ := run_new_ticks m [.update 10000000]
  have hd : 50000000 ≤ longest := by decide
  have hp : p.tickClock = 10000000 := by decide
  have hfault : (p.advance 50000000).fault = some (.invalidInstruction 0x5121) := by decide
  have hkeeps : ∀ request ∈ later, request.KeepsTime := by decide
  have hnone : .machine .tick ∉ later := by decide
  obtain ⟨-, hticks, -, hclock, -⟩ := hupdate 50000000 hd
  obtain ⟨-, hlater⟩ := hfresh p.reset (.inr (.inl rfl)) later hkeeps hnone
  rw [show (new m).run [.update 10000000] = p from rfl, hp] at hticks hclock
  exact ⟨hd, Progress.outcome_eq_error_iff.2 hfault, hp, hticks, hclock, hkeeps, hnone,
    hlater.trans (by decide)⟩

end Pacer

end ChipEight
