import ChipEight.Proofs.Pacer.Requests

/-!
# The instruction clock

A cycle costs a period, and it is made only when the clock can pay for it. So the cycles made so far,
a period each, and what is left on the clock never come to more than the clock held at first and the
time that has passed since (`Spent`). They come to exactly that much until a cycle stops the clock: a
stop throws away what is left, and after a fault an update puts nothing on the clock any more. Time is
lost in this way and never gained, which is why nothing is caught up on after a wait or a halt.

**Main statement**: `run_new_cycles`.
-/

namespace ChipEight

namespace Machine

variable {m : Machine}

/-- No cycle of a history stops the instruction clock. -/
def Unstopped (m : Machine) (events : List Event) : Prop :=
  ∀ outcome ∈ m.outcomes events, ¬ Pacer.stopsClock outcome

instance (m : Machine) (events : List Event) : Decidable (m.Unstopped events) :=
  inferInstanceAs (Decidable (∀ outcome ∈ m.outcomes events, ¬ Pacer.stopsClock outcome))

theorem unstopped_append {before after : List Event} :
    m.Unstopped (before ++ after) ↔ m.Unstopped before ∧ (m.run before).Unstopped after := by
  rw [Unstopped, outcomes_append, List.forall_mem_append]
  rfl

theorem unstopped_singleton_tick : m.Unstopped [.tick] := List.forall_mem_nil _

theorem unstopped_singleton_cycle :
    m.Unstopped [.cycle] ↔ ¬ Pacer.stopsClock m.cycle.outcome := List.forall_mem_singleton

theorem unstopped_tick {events : List Event} :
    m.Unstopped (.tick :: events) ↔ m.tick.Unstopped events := by
  rw [← List.singleton_append, unstopped_append]
  exact and_iff_right unstopped_singleton_tick

theorem unstopped_cycle {events : List Event} :
    m.Unstopped (.cycle :: events) ↔
      ¬ Pacer.stopsClock m.cycle.outcome ∧ m.cycle.machine.Unstopped events := by
  rw [← List.singleton_append, unstopped_append, unstopped_singleton_cycle]
  rfl

end Machine

/-- A cycle that does not stop the clock has not failed. -/
theorem Cycle.failure?_eq_none {cycle : Cycle} (h : ¬ Pacer.stopsClock cycle.outcome) :
    cycle.failure? = none := by
  obtain ⟨outcome, journal, machine⟩ := cycle
  cases outcome with
  | error fault => exact absurd rfl h
  | ok signal => rfl

namespace Progress

variable {p : Pacer} {elapsed d : Nat} {s t : Progress (List Event)}

/-- The cycles remembered are paid for out of what the instruction clock showed at first and the time
that has passed. -/
structure Spent (p : Pacer) (elapsed : Nat) (s : Progress (List Event)) : Prop where
  follows : Follows p.machine s
  within : s.pacer.cycleClock + p.period * s.seen.count .cycle ≤ p.cycleClock + elapsed
  balance : p.machine.Unstopped s.seen →
    s.pacer.cycleClock + p.period * s.seen.count .cycle = p.cycleClock + elapsed
  stopped : s.fault ≠ none → ¬ p.machine.Unstopped s.seen

/-- The machine is run at the same pace throughout. -/
theorem Follows.period_eq (h : Follows p.machine s) : s.pacer.period = p.period := by
  rw [Pacer.period, h, Machine.config_run]
  rfl

theorem Spent.passTicks (h : Spent p elapsed s) (d : Nat) :
    Spent p elapsed (s.passTicks record d) := by
  have hfollows := h.follows.passTicks d
  rcases s.passTicks_cases record d with ⟨-, hs⟩ | ⟨-, hs⟩
  · rw [hs] at hfollows ⊢
    have hcount : (s.seen ++ [Event.tick]).count .cycle = s.seen.count .cycle := by
      rw [List.count_append]
      rfl
    have hstop : p.machine.Unstopped (s.seen ++ [.tick]) ↔ p.machine.Unstopped s.seen := by
      rw [Machine.unstopped_append, and_iff_left Machine.unstopped_singleton_tick]
    refine ⟨hfollows, ?_, fun hgoing ↦ ?_, fun hfault hgoing ↦ ?_⟩
    · exact hcount ▸ h.within
    · exact hcount ▸ h.balance (hstop.1 hgoing)
    · exact h.stopped hfault (hstop.1 hgoing)
  · rw [hs] at hfollows ⊢
    exact ⟨hfollows, h.within, h.balance, h.stopped⟩

/-- In a slice that is not stopped its whole length is put on the clock. -/
theorem Spent.addTime (h : Spent p elapsed s) (d : Nat) :
    Spent p (elapsed + d) { s with pacer.cycleClock := s.pacer.cycleClock + d } where
  follows := h.follows
  within := by
    have hwithin := h.within
    show s.pacer.cycleClock + d + p.period * s.seen.count .cycle ≤ p.cycleClock + (elapsed + d)
    omega
  balance hgoing := by
    have hbalance := h.balance hgoing
    show s.pacer.cycleClock + d + p.period * s.seen.count .cycle = p.cycleClock + (elapsed + d)
    omega
  stopped := h.stopped

/-- A cycle that is due is paid for; if it stops the clock, the rest is lost. -/
theorem Spent.makeCycle (h : Spent p elapsed s) (hdue : p.period ≤ s.pacer.cycleClock) :
    Spent p elapsed (s.makeCycle record p.period) := by
  have hfollows := h.follows.makeCycle p.period
  have hwithin := h.within
  have hcount : p.period * (s.seen ++ [Event.cycle]).count .cycle
      = p.period * s.seen.count .cycle + p.period := by
    rw [List.count_append, List.count_singleton_self, Nat.mul_succ]
  have hgoes : p.machine.Unstopped (s.seen ++ [.cycle]) ↔
      p.machine.Unstopped s.seen ∧ ¬ Pacer.stopsClock s.pacer.machine.cycle.outcome := by
    rw [Machine.unstopped_append, Machine.unstopped_singleton_cycle, ← h.follows]
  rw [makeCycle_eq] at hfollows ⊢
  by_cases hstop : Pacer.stopsClock s.pacer.machine.cycle.outcome
  · rw [if_pos hstop] at hfollows ⊢
    refine ⟨hfollows, ?_, fun hgoing ↦ absurd hstop (hgoes.1 hgoing).2,
      fun _ hgoing ↦ (hgoes.1 hgoing).2 hstop⟩
    show 0 + p.period * (s.seen ++ [Event.cycle]).count .cycle ≤ p.cycleClock + elapsed
    omega
  · rw [if_neg hstop] at hfollows ⊢
    refine ⟨hfollows, ?_, fun hgoing ↦ ?_, fun hfault hgoing ↦ ?_⟩
    · show s.pacer.cycleClock - p.period + p.period * (s.seen ++ [Event.cycle]).count .cycle
        ≤ p.cycleClock + elapsed
      omega
    · have hbalance := h.balance (hgoes.1 hgoing).1
      show s.pacer.cycleClock - p.period + p.period * (s.seen ++ [Event.cycle]).count .cycle
        = p.cycleClock + elapsed
      omega
    · rw [Cycle.failure?_eq_none hstop, Option.none_or] at hfault
      exact h.stopped hfault (hgoes.1 hgoing).1

theorem cycleClock_passTicks {β : Type} (watch : β → Move → β) (d : Nat) (s : Progress β) :
    (s.passTicks watch d).pacer.cycleClock = s.pacer.cycleClock := by
  rcases s.passTicks_cases watch d with ⟨-, hs⟩ | ⟨-, hs⟩ <;> rw [hs]

/-- **A slice keeps within the budget, and leaves less than a period on the clock.** -/
theorem Spent.slice (h : Spent p elapsed s) (hlt : s.pacer.cycleClock < p.period)
    (hslice : Slice record d s t) : Spent p (elapsed + d) t ∧ t.pacer.cycleClock < p.period := by
  have hticks := h.passTicks d
  cases hslice with
  | stopped hfault =>
    have hfault : (s.passTicks record d).fault ≠ none := by rwa [fault_passTicks]
    refine ⟨⟨hticks.follows, ?_, fun hgoing ↦ absurd hgoing (hticks.stopped hfault),
      hticks.stopped⟩, ?_⟩
    · have hwithin := hticks.within
      omega
    · rwa [cycleClock_passTicks]
  | running _ cycles =>
    rw [hticks.follows.period_eq] at cycles
    exact ⟨cycles.preserves (fun _ hdue hs ↦ hs.makeCycle hdue) (hticks.addTime d),
      cycles.cycleClock_lt⟩

end Progress

namespace Pacer

variable {p : Pacer}

/-- **An update keeps within the budget of the instruction clock.** -/
theorem spent_advance (h : p.cycleClock < p.period) (duration : Nat) :
    Progress.Spent p (min duration longest)
        ⟨(p.advance duration).pacer, (p.advance duration).fault, p.events duration⟩ ∧
      (p.advance duration).pacer.cycleClock < p.period := by
  have hloops := (p.elapses_events [] duration).preserves
    (P := fun elapsed s ↦ Progress.Spent p elapsed s ∧ s.pacer.cycleClock < p.period)
    (fun _ _ _ _ _ hslice h ↦ h.1.slice h.2 hslice) 0
    ⟨⟨rfl, Nat.le_refl _, fun _ ↦ rfl, fun hfault ↦ absurd rfl hfault⟩, h⟩
  rwa [Nat.zero_add] at hloops

/-- Whatever is asked of a pacer, the pace stays the same. -/
theorem period_apply (p : Pacer) (request : Request) : (p.apply request).period = p.period := by
  rw [period, machine_apply, Machine.config_run]
  rfl

theorem cycleClock_apply_lt (h : p.cycleClock < p.period) (request : Request) :
    (p.apply request).cycleClock < (p.apply request).period := by
  rw [period_apply]
  cases request with
  | update duration => exact (spent_advance h duration).2
  | load program =>
    rw [apply, load]
    cases p.machine.load program with
    | error fault => exact h
    | ok loaded => exact p.period_pos
  | reset => exact p.period_pos
  | machine event => exact h

/-- **The instruction clock never shows a whole period between two requests.** -/
theorem cycleClock_run_lt (h : p.cycleClock < p.period) (requests : List Request) :
    (p.run requests).cycleClock < (p.run requests).period := by
  induction requests generalizing p with
  | nil => exact h
  | cons request requests ih => exact ih (cycleClock_apply_lt h request)

theorem period_run (p : Pacer) (requests : List Request) : (p.run requests).period = p.period := by
  induction requests generalizing p with
  | nil => rfl
  | cons request requests ih => rw [run_cons, ih, period_apply]

/-- Beside the cycles that the clock pays for, the machine makes those it is told to. -/
theorem cycles_apply (h : p.cycleClock < p.period) {request : Request} (keeps : request.KeepsTime) :
    let spent := (p.apply request).cycleClock + p.period * (p.eventsOf request).count .cycle
    let given :=
      p.cycleClock + request.duration + p.period * [request].count (.machine .cycle)
    spent ≤ given ∧ (p.machine.Unstopped (p.eventsOf request) → spent = given) := by
  cases request with
  | update duration =>
    obtain ⟨hspent, -⟩ := spent_advance h duration
    rw [Nat.min_eq_left keeps] at hspent
    exact ⟨hspent.within, hspent.balance⟩
  | load => exact keeps.elim
  | reset => exact keeps.elim
  | machine event => cases event <;> exact ⟨Nat.le_refl _, fun _ ↦ rfl⟩

/-- **However time is cut into updates, and whatever happens between them, the instruction clock pays
for no more cycles than the total time does**, and for as many if none of them stops it. -/
theorem cycles_run (h : p.cycleClock < p.period) {requests : List Request}
    (keeps : ∀ request ∈ requests, request.KeepsTime) :
    let spent := (p.run requests).cycleClock + p.period * (p.history requests).count .cycle
    let given :=
      p.cycleClock + Request.total requests + p.period * requests.count (.machine .cycle)
    spent ≤ given ∧ (p.machine.Unstopped (p.history requests) → spent = given) := by
  induction requests generalizing p with
  | nil => exact ⟨Nat.le_refl _, fun _ ↦ rfl⟩
  | cons request requests ih =>
    rw [List.forall_mem_cons] at keeps
    obtain ⟨hfirst, hfirst'⟩ := cycles_apply h keeps.1
    obtain ⟨hlater, hlater'⟩ := ih (cycleClock_apply_lt h request) keeps.2
    rw [period_apply] at hlater hlater'
    rw [← List.singleton_append, List.count_append, List.singleton_append, run_cons, history,
      List.count_append, Request.total, Nat.mul_add, Nat.mul_add, Machine.unstopped_append,
      ← machine_apply]
    refine ⟨by omega, fun hgoing ↦ ?_⟩
    have hsame := hfirst' hgoing.1
    have hsame' := hlater' hgoing.2
    omega

/-- So the cycles are the whole periods of the time given, or fewer if one of them stops the clock. -/
theorem count_cycles (h : p.cycleClock < p.period) {requests : List Request}
    (keeps : ∀ request ∈ requests, request.KeepsTime) (hnone : .machine .cycle ∉ requests) :
    let due := (p.cycleClock + Request.total requests) / p.period
    (p.history requests).count .cycle ≤ due ∧
      (p.machine.Unstopped (p.history requests) → (p.history requests).count .cycle = due) := by
  obtain ⟨hwithin, hbalance⟩ := cycles_run h keeps
  rw [List.count_eq_zero.2 hnone, Nat.mul_zero, Nat.add_zero] at hwithin hbalance
  constructor
  · rw [Nat.le_div_iff_mul_le p.period_pos, Nat.mul_comm]
    exact Nat.le_of_add_left_le hwithin
  · intro hgoing
    have hlt := cycleClock_run_lt h requests
    rw [period_run] at hlt
    exact ((Nat.div_mod_unique p.period_pos).2 ⟨hbalance hgoing, hlt⟩).1.symm

/-- **The budget of the instruction clock**, whatever has been asked of a pacer before. The loops of an
update end, and they come to nothing but the update. It makes no more cycles than there are whole
periods in what the clock holds with the duration, and leaves less than a period on the clock. As it
never begins with more than that, nothing is caught up on, however long a wait or a halt has been. If
none of its cycles stops the clock, it makes exactly so many and leaves what is over; and then it makes
no difference how a duration is cut into updates, or what happens between them that is no cycle. -/
theorem run_new_cycles (m : Machine) (requests : List Request) :
    let p := (new m).run requests
    let c := max 1 (1000000000 / max 1 m.config.cpuHz.toNat)
    p.cycleClock < c ∧
      (∀ d ≤ longest,
        let cycles := (p.events d).count .cycle
        (∀ s, Progress.Elapses Summary.add d ⟨p, none, .nothing⟩ s ↔ s = p.advance d) ∧
          (p.advance d).pacer.machine = p.machine.run (p.events d) ∧
          cycles ≤ (p.cycleClock + d) / c ∧ cycles ≤ (c - 1 + d) / c ∧
          (p.advance d).pacer.cycleClock < c ∧
          (p.machine.Unstopped (p.events d) → cycles = (p.cycleClock + d) / c ∧
            (p.advance d).pacer.cycleClock = (p.cycleClock + d) % c)) ∧
      ∀ later : List Request, (∀ request ∈ later, request.KeepsTime) → .machine .cycle ∉ later →
        p.machine.Unstopped (p.history later) →
          (p.run later).machine = p.machine.run (p.history later) ∧
            (p.history later).count .cycle = (p.cycleClock + Request.total later) / c := by
  intro p c
  have hperiod : p.period = c := period_run (new m) requests
  have hpos : 0 < c := hperiod ▸ p.period_pos
  have hp : p.cycleClock < p.period := cycleClock_run_lt (new m).period_pos requests
  refine ⟨hperiod ▸ hp, fun d hd ↦ ?_, fun later keeps hnone hgoing ↦ ⟨p.machine_run later, ?_⟩⟩
  · obtain ⟨hspent, hlt⟩ := spent_advance hp d
    rw [Nat.min_eq_left hd] at hspent
    have hwithin := hspent.within
    have hbalance := hspent.balance
    rw [hperiod] at hp hlt hwithin hbalance
    have hmany : (p.events d).count .cycle ≤ (p.cycleClock + d) / c := by
      rw [Nat.le_div_iff_mul_le hpos, Nat.mul_comm]
      exact Nat.le_of_add_left_le hwithin
    have hfresh : (p.cycleClock + d) / c ≤ (c - 1 + d) / c :=
      Nat.div_le_div_right (Nat.add_le_add_right (Nat.le_sub_one_of_lt hp) d)
    refine ⟨fun s ↦ elapses_iff hd, p.machine_advance d, hmany, Nat.le_trans hmany hfresh, hlt,
      fun hgoing ↦ ?_⟩
    obtain ⟨hdiv, hmod⟩ := (Nat.div_mod_unique hpos).2 ⟨hbalance hgoing, hlt⟩
    exact ⟨hdiv.symm, hmod.symm⟩
  · rw [← hperiod]
    exact (count_cycles hp keeps hnone).2 hgoing

/-- A machine waits for a key through an update of a tenth of a second. Then the key comes, and the next
update makes three cycles, those that its own duration pays for together with what the clock held. -/
theorem no_burst_after_wait :
    let m := (Machine.powerOn { Config.usual with cpuHz := 100 } (.ofSeed 0)).run
      [.load [0x60, 0x05, 0xF1, 0x0A, 0x12, 0x04]]
    let p := (new m).run [.update 105000000, .machine (.key 7 true)]
    let later : List Request := [.update 12000000, .machine (.key 7 false), .update 13000000]
    25000000 ≤ longest ∧ p.cycleClock = 5000004 ∧ p.machine.Unstopped (p.events 25000000) ∧
      (p.events 25000000).count .cycle = 3 ∧ (p.advance 25000000).pacer.cycleClock = 4 ∧
      (∀ request ∈ later, request.KeepsTime) ∧ .machine .cycle ∉ later ∧
        p.machine.Unstopped (p.history later) ∧ (p.history later).count .cycle = 3 := by
  intro m p later
  obtain ⟨-, hupdate, hlater⟩ := run_new_cycles m [.update 105000000, .machine (.key 7 true)]
  have hd : 25000000 ≤ longest := by decide
  have hp : p.cycleClock = 5000004 := by decide
  have hgoing : p.machine.Unstopped (p.events 25000000) := by decide
  have hkeeps : ∀ request ∈ later, request.KeepsTime := by decide
  have hnone : .machine .cycle ∉ later := by decide
  have hgoing' : p.machine.Unstopped (p.history later) := by decide
  obtain ⟨-, -, -, -, -, hexact⟩ := hupdate 25000000 hd
  obtain ⟨hcycles, hclock⟩ := hexact hgoing
  obtain ⟨-, hcycles'⟩ := hlater later hkeeps hnone hgoing'
  rw [show (new m).run [.update 105000000, .machine (.key 7 true)] = p from rfl, hp]
    at hcycles hclock hcycles'
  exact ⟨hd, hp, hgoing, hcycles.trans (by decide), hclock.trans (by decide), hkeeps, hnone, hgoing',
    hcycles'.trans (by decide)⟩

end Pacer

end ChipEight
