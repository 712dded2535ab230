import ChipEight.Proofs.Pacer.Frames
import ChipEight.Proofs.Pacer.Slicing
import ChipEight.Proofs.Pacer.Summaries

/-!
# Updates that fail

A cycle that fails ends the cycles of its update and nothing else: it leaves the loop over the cycles of
a slice, while the loop over the slices goes on. So an update whose machine fails in one of its slices
comes in three parts. In the slices before, no cycle fails (`Clear`). In the slice itself the cycle made
last is the one that fails (`Failed`), and the clock is left empty. In the slices after it the timers go
on alone, and the ticks are the whole periods of what the timer clock then holds
(`foldl_pass_of_fault`).

A machine that had failed before the update is the special case in which nothing comes before the
failing cycle but ticks, and what that cycle fails with is `halted`.

**Main statements**: `course`, `advance_of_fault`, `Course.exists_failed` and `run_new_failures`.
-/

namespace ChipEight

/-- No tick and no cycle restarts a machine. -/
theorem Event.not_restarts_of_update {events : List Event}
    (h : ∀ event ∈ events, event = .tick ∨ event = .cycle) : ∀ event ∈ events, ¬ event.restarts := by
  intro event hevent
  rcases h event hevent with rfl | rfl <;> exact Bool.false_ne_true

namespace Machine

variable {m : Machine} {fault : Fault}

/-- Every cycle of a machine that has failed fails because of that. -/
theorem outcome_of_mem_moments (halted : m.fault = some fault) {events : List Event}
    (h : ∀ event ∈ events, ¬ event.restarts) {t : Moment} (ht : t ∈ m.moments events) :
    t.machine.cycle.outcome = .error .halted := by
  obtain ⟨before, after, hsplit⟩ := List.append_of_mem ht
  obtain ⟨earlier, later, rfl, -, hmachine, -⟩ := exists_of_moments_eq hsplit
  rw [hmachine, cycle_of_fault (fault_run_of_not_restarts halted fun event hevent ↦
    h event (List.mem_append_left _ hevent))]

end Machine

namespace Progress

variable {m : Machine} {s t : Progress (List Event)} {d : Nat}

/-- No cycle has failed so far. -/
structure Clear (m : Machine) (s : Progress (List Event)) : Prop where
  follows : Follows m s
  fault_eq : s.fault = none
  unfailed : ∀ t ∈ m.moments s.seen, t.failure? = none

/-- The cycle made last has failed, and none did before it. -/
structure Failed (m : Machine) (earlier : List Event) (fault : Fault) (s : Progress (List Event)) :
    Prop where
  follows : Follows m s
  fault_eq : s.fault = some fault
  cycleClock_eq : s.pacer.cycleClock = 0
  seen_eq : s.seen = earlier ++ [.cycle]
  unfailed : ∀ t ∈ m.moments earlier, t.failure? = none
  outcome_eq : (m.run earlier).cycle.outcome = .error fault

/-! ### Up to the failing cycle -/

theorem Clear.concat (h : Clear m s) {event : Event} (hfollows : Follows m t) (hfault : t.fault = none)
    (hseen : t.seen = s.seen ++ [event])
    (hnone : Moment.failure? ⟨s.pacer.machine, event⟩ = none) : Clear m t := by
  refine ⟨hfollows, hfault, ?_⟩
  rw [hseen, Machine.moments_append, List.forall_mem_append, ← h.follows]
  exact ⟨h.unfailed, List.forall_mem_singleton.2 hnone⟩

theorem Clear.passTicks (h : Clear m s) (d : Nat) : Clear m (s.passTicks record d) := by
  have hfollows := h.follows.passTicks d
  have hfault : (s.passTicks record d).fault = none := fault_passTicks.trans h.fault_eq
  rcases s.passTicks_cases record d with ⟨-, hs⟩ | ⟨-, hs⟩ <;> rw [hs] at hfollows hfault ⊢
  · exact h.concat hfollows hfault rfl rfl
  · exact ⟨hfollows, hfault, h.unfailed⟩

/-- A cycle after which none has failed yet, or the first that does. -/
theorem Clear.makeCycle (h : Clear m s) (period : Nat) :
    Clear m (s.makeCycle record period) ∨
      ∃ fault, Failed m s.seen fault (s.makeCycle record period) := by
  have hfollows := h.follows.makeCycle period
  rw [makeCycle_eq, h.fault_eq, Option.or_none] at hfollows ⊢
  rcases hfailure : s.pacer.machine.cycle.failure? with - | fault
  · rw [hfailure] at hfollows
    exact .inl (h.concat hfollows rfl rfl hfailure)
  · rw [hfailure] at hfollows
    have houtcome := Cycle.failure?_eq_some_iff.1 hfailure
    refine .inr ⟨fault, hfollows, rfl, ?_, rfl, h.unfailed, h.follows ▸ houtcome⟩
    rw [houtcome]
    rfl

/-- **In a slice no cycle fails, or the last one does**: the clock is empty then, and no other is due. -/
theorem Clear.slice (h : Clear m s) (hslice : Slice record d s t) :
    Clear m t ∨ ∃ earlier fault, Failed m earlier fault t := by
  cases hslice with
  | stopped hfault => exact absurd h.fault_eq hfault
  | running _ cycles =>
    have hticks := h.passTicks d
    have hperiod := (s.passTicks record d).pacer.period_pos
    refine cycles.preserves (P := fun t ↦ Clear m t ∨ ∃ earlier fault, Failed m earlier fault t)
      (fun u hdue hu ↦ ?_) (.inl ⟨hticks.follows, hticks.fault_eq, hticks.unfailed⟩)
    rcases hu with hclear | ⟨_, _, hfailed⟩
    · exact (hclear.makeCycle _).imp_right fun hfailed ↦ ⟨u.seen, hfailed⟩
    · exact absurd hfailed.cycleClock_eq (by omega)

/-! ### After the failing cycle -/

/-- **In the slices after a fault the timers go on alone.** The ticks are the whole periods of what the
timer clock holds with the time that is left. -/
theorem foldl_pass_of_fault (hfault : s.fault ≠ none) (hclock : s.pacer.tickClock < Pacer.tickPeriod)
    {ds : List Nat} (hds : ∀ d ∈ ds, d ≤ Pacer.tickPeriod) :
    let held := s.pacer.tickClock + ds.foldr (· + ·) 0
    let late := List.replicate (held / Pacer.tickPeriod) Event.tick
    ds.foldl (fun s d ↦ s.pass record d) s =
      { pacer :=
          { machine := s.pacer.machine.run late
            cycleClock := s.pacer.cycleClock
            tickClock := held % Pacer.tickPeriod }
        fault := s.fault
        seen := s.seen ++ late } := by
  induction ds generalizing s with
  | nil =>
    dsimp only [List.foldl_nil, List.foldr_nil, Nat.add_zero]
    rw [Nat.div_eq_of_lt hclock, Nat.mod_eq_of_lt hclock, List.replicate_zero, List.append_nil]
    rfl
  | cons d ds ih =>
    rw [List.forall_mem_cons] at hds
    have hpass : s.pass record d = s.passTicks record d :=
      (slice_pass record d s).unique (.stopped hfault)
    have hstays : (s.passTicks record d).fault ≠ none := by rwa [fault_passTicks]
    have hlater := ih hstays (tickClock_passTicks_lt hds.1 hclock) hds.2
    rw [List.foldl_cons, hpass, hlater, List.foldr_cons, ← Nat.add_assoc]
    rcases s.passTicks_cases record d with ⟨hge, hs⟩ | ⟨-, hs⟩
    · -- The tick of this slice is one of those that the whole time has room for.
      have hrest : s.pacer.tickClock + d - Pacer.tickPeriod + ds.foldr (· + ·) 0
          = s.pacer.tickClock + d + ds.foldr (· + ·) 0 - Pacer.tickPeriod := by omega
      have hroom : Pacer.tickPeriod ≤ s.pacer.tickClock + d + ds.foldr (· + ·) 0 := by omega
      rw [hs]
      dsimp only
      rw [hrest, Nat.div_eq_sub_div Pacer.tickPeriod_pos hroom, ← Nat.mod_eq_sub_mod hroom,
        List.replicate_succ, Machine.run_cons, record, List.append_assoc]
      rfl
    · rw [hs]

end Progress

namespace Pacer

variable (p : Pacer)

/-- What happens to the machine in some slices of an update. -/
def trail (ds : List Nat) : Progress (List Event) :=
  ds.foldl (fun s d ↦ s.pass Progress.record d) ⟨p, none, []⟩

/-- The slices go by in the same way, whether their events are remembered or summed up. -/
theorem trail_agree (ds : List Nat) :
    (p.trail ds).pacer = (p.walk ds).pacer ∧ (p.trail ds).fault = (p.walk ds).fault :=
  Progress.foldl_pass_agree Progress.record Summary.add rfl rfl ds

theorem trail_slices (duration : Nat) :
    p.trail (slices (min duration longest))
      = ⟨(p.advance duration).pacer, (p.advance duration).fault, p.events duration⟩ := by
  have hrecord := p.update_record [] duration
  rw [update_eq_foldl] at hrecord
  exact hrecord

/-- **The first slice in which a cycle fails**, if there is one. -/
theorem clear_or_failed (ds : List Nat) :
    Progress.Clear p.machine (p.trail ds) ∨
      ∃ earlier fault before slice after, ds = before ++ slice :: after ∧
        Progress.Clear p.machine (p.trail before) ∧
          Progress.Failed p.machine earlier fault (p.trail (before ++ [slice])) := by
  induction ds using List.reverseRecOn with
  | nil => exact .inl ⟨rfl, rfl, List.forall_mem_nil _⟩
  | append_singleton ds d ih =>
    rcases ih with hclear | ⟨earlier, fault, before, slice, after, rfl, hclear, hfailed⟩
    · have hslice : Progress.Slice Progress.record d (p.trail ds) (p.trail (ds ++ [d])) := by
        rw [trail, trail, List.foldl_append]
        exact Progress.slice_pass _ _ _
      exact (hclear.slice hslice).imp_right
        fun ⟨earlier, fault, hfailed⟩ ↦ ⟨earlier, fault, ds, d, [], rfl, hclear, hfailed⟩
    · exact .inr ⟨earlier, fault, before, slice, after ++ [d],
        by rw [List.append_assoc, List.cons_append], hclear, hfailed⟩

/-- The course that an update takes: no cycle of it fails, or one does in one of its slices, and in the
slices after that there are ticks alone. -/
inductive Course (duration : Nat) : Prop where
  | clear (fault_eq : (p.advance duration).fault = none)
      (unfailed : ∀ t ∈ p.machine.moments (p.events duration), t.failure? = none)
  | failed {earlier : List Event} {fault : Fault} {before : List Nat} {slice : Nat} {after : List Nat}
      (fault_eq : (p.advance duration).fault = some fault)
      (slices_eq : slices (min duration longest) = before ++ slice :: after)
      (clear : Progress.Clear p.machine (p.trail before))
      (failed : Progress.Failed p.machine earlier fault (p.trail (before ++ [slice])))
      (cycleClock_eq : (p.advance duration).pacer.cycleClock = 0)
      (events_eq : p.events duration = earlier ++ .cycle ::
        List.replicate (((p.walk (before ++ [slice])).pacer.tickClock + after.foldr (· + ·) 0)
          / tickPeriod) .tick)

variable {p} {fault : Fault}

/-- **Every update takes one of the two courses.** -/
theorem course (hclock : p.tickClock < tickPeriod) (duration : Nat) : p.Course duration := by
  have htrail := p.trail_slices duration
  rcases p.clear_or_failed (slices (min duration longest)) with
    hclear | ⟨earlier, fault, before, slice, after, hsplit, hclear, hfailed⟩
  · rw [htrail] at hclear
    exact .clear hclear.fault_eq hclear.unfailed
  · have hslices : ∀ d ∈ before ++ [slice] ++ after, d ≤ tickPeriod := by
      rw [List.append_assoc, List.singleton_append, ← hsplit]
      exact fun d hd ↦ (mem_slices hd).2
    rw [List.forall_mem_append] at hslices
    have hreached : (p.trail (before ++ [slice])).pacer.tickClock < tickPeriod :=
      Progress.tickClock_foldl_lt hslices.1 hclock
    have hfault : (p.trail (before ++ [slice])).fault ≠ none := by
      rw [hfailed.fault_eq]
      exact Option.some_ne_none _
    have hrest := Progress.foldl_pass_of_fault hfault hreached hslices.2
    have hwhole : p.trail (slices (min duration longest)) = after.foldl
        (fun s d ↦ s.pass Progress.record d) (p.trail (before ++ [slice])) := by
      rw [hsplit, trail, trail, ← List.foldl_append, List.append_assoc, List.singleton_append]
    dsimp only at hrest
    rw [← hwhole, htrail, hfailed.seen_eq, (p.trail_agree _).1, List.append_assoc,
      List.singleton_append, Progress.mk.injEq] at hrest
    obtain ⟨hpacer, hsame, hevents⟩ := hrest
    refine .failed (hsame.trans hfailed.fault_eq) hsplit hclear hfailed ?_ hevents
    rw [hpacer, ← (p.trail_agree _).1]
    exact hfailed.cycleClock_eq

/-- **An update fails with what the first cycle fails with that does.** -/
theorem Course.findSome?_eq {duration : Nat} (h : p.Course duration) :
    (p.machine.moments (p.events duration)).findSome? Moment.failure?
      = (p.advance duration).fault := by
  cases h with
  | clear fault_eq unfailed => rw [fault_eq, List.findSome?_eq_none_iff.2 unfailed]
  | @failed earlier fault _ _ _ fault_eq _ _ failed _ events_eq =>
    have hfailure : Moment.failure? ⟨p.machine.run earlier, .cycle⟩ = some fault :=
      Cycle.failure?_eq_some_iff.2 failed.outcome_eq
    rw [fault_eq, events_eq, Machine.moments_append, List.findSome?_append,
      List.findSome?_eq_none_iff.2 failed.unfailed, Option.none_or, Machine.moments_cons,
      List.findSome?_cons, hfailure]

/-- No period is longer than a second. -/
theorem period_le_second (p : Pacer) : p.period ≤ second :=
  Nat.max_le.2 ⟨by decide, Nat.div_le_self _ _⟩

/-- **An update makes a cycle exactly if one is due in its duration.** -/
theorem cycle_mem_events_iff (h : p.cycleClock < p.period) (duration : Nat) :
    .cycle ∈ p.events duration ↔ p.period ≤ p.cycleClock + duration := by
  obtain ⟨⟨-, hwithin, hbalance, -⟩, hlt⟩ := spent_advance h duration
  dsimp only at hwithin hbalance
  have hperiod : p.period ≤ longest := Nat.le_trans p.period_le_second (by decide)
  constructor
  · intro hmem
    have hpaid : p.period * 1 ≤ p.period * (p.events duration).count .cycle :=
      Nat.mul_le_mul_left _ (List.count_pos_iff.2 hmem)
    omega
  · refine fun hdue ↦ Classical.byContradiction fun hnone ↦ ?_
    have hcount : (p.events duration).count .cycle = 0 := List.count_eq_zero.2 hnone
    have hgoing : p.machine.Unstopped (p.events duration) := by
      rw [Machine.Unstopped, List.eq_nil_of_length_eq_zero
        ((p.machine.length_outcomes (p.events duration)).trans hcount)]
      exact List.forall_mem_nil _
    have hall := hbalance hgoing
    rw [hcount, Nat.mul_zero] at hall
    omega

/-- An update of a machine that has failed before fails with the first cycle it makes. -/
theorem fault_advance_of_fault (hticks : p.tickClock < tickPeriod) (halted : p.machine.fault = some fault)
    (duration : Nat) :
    .cycle ∈ p.events duration ∧ (p.advance duration).fault = some .halted ∨
      .cycle ∉ p.events duration ∧ (p.advance duration).fault = none := by
  have hstay : ∀ event ∈ p.events duration, ¬ event.restarts :=
    Event.not_restarts_of_update fun _ ↦ p.mem_events
  cases course hticks duration with
  | clear fault_eq unfailed =>
    refine .inr ⟨fun hmem ↦ ?_, fault_eq⟩
    obtain ⟨before, after, hsplit⟩ := List.append_of_mem hmem
    have hmoment : ⟨p.machine.run before, .cycle⟩ ∈ p.machine.moments (p.events duration) := by
      rw [hsplit]
      exact Machine.moment_mem_moments _ _ _ _
    have houtcome := Machine.outcome_of_mem_moments halted hstay hmoment
    exact Option.some_ne_none _
      ((Cycle.failure?_eq_some_iff.2 houtcome).symm.trans (unfailed _ hmoment))
  | @failed earlier _ _ _ _ fault_eq _ _ failed _ events_eq =>
    have hmoment : ⟨p.machine.run earlier, .cycle⟩ ∈ p.machine.moments (p.events duration) := by
      rw [events_eq]
      exact Machine.moment_mem_moments _ _ _ _
    have houtcome := Machine.outcome_of_mem_moments halted hstay hmoment
    rw [fault_eq, Except.error.inj (failed.outcome_eq.symm.trans houtcome)]
    exact .inl ⟨Machine.event_mem_of_mem_moments hmoment, rfl⟩

/-- **An update of a machine that has failed before** fails as soon as a cycle is due, and makes no
instruction. Nothing but the timers is changed. -/
theorem advance_of_fault (hcycles : p.cycleClock < p.period) (hticks : p.tickClock < tickPeriod)
    (halted : p.machine.fault = some fault) (duration : Nat) :
    ((p.advance duration).outcome = .error .halted ↔ p.period ≤ p.cycleClock + duration) ∧
      (¬ p.period ≤ p.cycleClock + duration →
        ∃ summary, (p.advance duration).outcome = .ok summary ∧ summary.instructions = 0) ∧
        ∃ timers, (p.advance duration).pacer.machine = { p.machine with timers } := by
  rw [← cycle_mem_events_iff hcycles, Progress.outcome_eq_error_iff, machine_advance]
  refine ⟨?_, fun hnone ↦ ?_, ?_⟩
  · rcases fault_advance_of_fault hticks halted duration with ⟨hmem, hfault⟩ | ⟨hnone, hfault⟩
    · exact iff_of_true hfault hmem
    · exact iff_of_false (fun h ↦ Option.some_ne_none _ (h.symm.trans hfault)) hnone
  · rcases fault_advance_of_fault hticks halted duration with ⟨hmem, -⟩ | ⟨-, hfault⟩
    · exact absurd hmem hnone
    · have hcount : (p.events duration).count .cycle = 0 := List.count_eq_zero.2 hnone
      have hmade := p.instructions_advance_le duration
      exact ⟨_, Progress.outcome_eq_ok_iff.2 ⟨hfault, rfl⟩, by omega⟩
  · exact ((Machine.Idle.failed halted).run fun _ ↦ p.mem_events).2.exists_timers

/-- **Where an update has failed.** The clock is empty afterwards, and there is a slice that ends with the
first cycle that fails; after it come the ticks that are due in the slices that are left. -/
theorem Course.exists_failed {duration : Nat} (h : p.Course duration)
    (hfault : (p.advance duration).fault = some fault) :
    (p.advance duration).pacer.cycleClock = 0 ∧
      ∃ before slice after, slices (min duration longest) = before ++ slice :: after ∧
        (p.walk before).fault = none ∧
        let failed := p.walk (before ++ [slice])
        let late := List.replicate
          ((failed.pacer.tickClock + after.foldr (· + ·) 0) / tickPeriod) Event.tick
        failed.fault = some fault ∧
          (p.advance duration).pacer.machine = failed.pacer.machine.run late ∧
            ∃ earlier : List Event, p.events duration = earlier ++ .cycle :: late ∧
              (∀ t ∈ p.machine.moments earlier, t.failure? = none) ∧
                (p.machine.run earlier).cycle.outcome = .error fault ∧
                  failed.pacer.machine = (p.machine.run earlier).cycle.machine := by
  cases h with
  | clear fault_eq => exact absurd (hfault.symm.trans fault_eq) (Option.some_ne_none _)
  | @failed earlier e before slice after fault_eq slices_eq clear failed cycleClock_eq events_eq =>
    obtain rfl : e = fault := Option.some.inj (fault_eq.symm.trans hfault)
    have hmachine : (p.walk (before ++ [slice])).pacer.machine
        = (p.machine.run earlier).cycle.machine := by
      rw [← (p.trail_agree _).1, failed.follows, failed.seen_eq, Machine.run_append]
      rfl
    have hbefore : (p.walk before).fault = none := (p.trail_agree _).2.symm.trans clear.fault_eq
    have hslice : (p.walk (before ++ [slice])).fault = some e :=
      (p.trail_agree _).2.symm.trans failed.fault_eq
    refine ⟨cycleClock_eq, before, slice, after, slices_eq, hbefore, hslice, ?_, earlier, events_eq,
      failed.unfailed, failed.outcome_eq, hmachine⟩
    rw [p.machine_advance duration, events_eq, Machine.run_append, hmachine]
    rfl

/-- **How updates fail**, whatever has been asked of a pacer before. If its machine has failed already,
an update fails with `halted` as soon as a cycle is due, succeeds without an instruction before that, and
changes nothing but the timers in either case. Otherwise it fails exactly if some cycle of it does, and
with what the first such cycle fails with. The machine latches that fault, which is never `halted`, and
the instruction clock is empty. Nothing but ticks comes after the failing cycle, and they are all that
are due in the slices that follow its own. -/
theorem run_new_failures (m : Machine) (requests : List Request) :
    let p := (new m).run requests
    let c := max 1 (1000000000 / max 1 m.config.cpuHz.toNat)
    ∀ d ≤ longest,
      let s := p.advance d
      s = p.walk (slices d) ∧ s.pacer.machine = p.machine.run (p.events d) ∧
        (∀ fault, p.machine.fault = some fault →
          (s.outcome = .error .halted ↔ c ≤ p.cycleClock + d) ∧
            (¬ c ≤ p.cycleClock + d → ∃ summary, s.outcome = .ok summary ∧ summary.instructions = 0) ∧
              ∃ timers, s.pacer.machine = { p.machine with timers }) ∧
        (p.machine.fault = none → ∀ fault,
          (s.outcome = .error fault ↔
            ∃ before t after, p.machine.moments (p.events d) = before ++ t :: after ∧
              t.failure? = some fault ∧ ∀ earlier ∈ before, earlier.failure? = none) ∧
            (s.outcome = .error fault →
              s.pacer.machine.fault = some fault ∧ fault ≠ .halted ∧ s.pacer.cycleClock = 0 ∧
                ∃ before slice after, slices d = before ++ slice :: after ∧
                  (p.walk before).fault = none ∧
                  let failed := p.walk (before ++ [slice])
                  let late := List.replicate
                    ((failed.pacer.tickClock + after.foldr (· + ·) 0) / tickPeriod) Event.tick
                  failed.fault = some fault ∧ s.pacer.machine = failed.pacer.machine.run late ∧
                    ∃ earlier : List Event, p.events d = earlier ++ .cycle :: late ∧
                      (∀ t ∈ p.machine.moments earlier, t.failure? = none) ∧
                        (p.machine.run earlier).cycle.outcome = .error fault ∧
                          failed.pacer.machine = (p.machine.run earlier).cycle.machine)) := by
  intro p c d hd s
  have hperiod : p.period = c := period_run (new m) requests
  have hcycles : p.cycleClock < p.period := cycleClock_run_lt (new m).period_pos requests
  have hticks : p.tickClock < tickPeriod := tickClock_run_lt tickPeriod_pos requests
  have hcourse := course hticks d
  refine ⟨?_, p.machine_advance d, fun fault halted ↦ ?_, fun running fault ↦ ⟨?_, fun herror ↦ ?_⟩⟩
  · show p.update Summary.add .nothing d = _
    rw [update_eq_foldl, Nat.min_eq_left hd]
    rfl
  · rw [← hperiod]
    exact advance_of_fault hcycles hticks halted d
  · rw [Progress.outcome_eq_error_iff, ← hcourse.findSome?_eq, List.findSome?_eq_some_iff]
  · rw [Progress.outcome_eq_error_iff] at herror
    have hlatched : Progress.Latched (p.advance d) := latched_update running d
    have hfailed := hcourse.exists_failed herror
    rw [Nat.min_eq_left hd] at hfailed
    exact ⟨hlatched.fault_eq.symm.trans herror, (hlatched.ofProgram _ herror).1, hfailed⟩

/-- A program sets the delay timer and fails in the second of five slices, and the two ticks that are due
in the other three count the timer down. An update after that is too short for a cycle, and one that is
a nanosecond longer fails. -/
theorem failure_in_second_slice :
    let m := (Machine.powerOn { Config.usual with cpuHz := 100 } (.ofSeed 0)).run
      [.load [0x60, 0x05, 0xF0, 0x15, 0x51, 0x21]]
    let p := new m
    let q := (new m).run [.update 80000000]
    80000000 ≤ longest ∧ p.machine.fault = none ∧
      (p.advance 80000000).outcome = .error (.invalidInstruction 0x5121) ∧
      q.machine.fault = some (.invalidInstruction 0x5121) ∧ q.machine.timers.delay = 3 ∧
      (∃ before slice after, slices 80000000 = before ++ slice :: after ∧
        (p.walk before).fault = none ∧
          (p.walk (before ++ [slice])).fault = some (.invalidInstruction 0x5121)) ∧
      (∃ summary, (q.advance 9999999).outcome = .ok summary ∧ summary.instructions = 0) ∧
        (q.advance 10000000).outcome = .error .halted := by
  intro m p q
  have hd : 80000000 ≤ longest := by decide
  have running : p.machine.fault = none := by decide
  have halted : q.machine.fault = some (.invalidInstruction 0x5121) := by decide
  have hclock : q.cycleClock = 0 := by decide
  obtain ⟨-, -, -, hfails⟩ := run_new_failures m [] 80000000 hd
  obtain ⟨-, hfault⟩ := hfails running (.invalidInstruction 0x5121)
  have herror : (p.advance 80000000).outcome = .error (.invalidInstruction 0x5121) := by decide
  obtain ⟨-, -, -, before, slice, after, hsplit, hnone, hsome, -⟩ := hfault herror
  obtain ⟨-, -, hshort, -⟩ := run_new_failures m [.update 80000000] 9999999 (by decide)
  obtain ⟨-, -, hlong, -⟩ := run_new_failures m [.update 80000000] 10000000 (by decide)
  rw [show (new m).run [.update 80000000] = q from rfl, hclock] at hshort hlong
  obtain ⟨-, hzero, -⟩ := hshort _ halted
  obtain ⟨hhalted, -⟩ := hlong _ halted
  exact ⟨hd, running, herror, halted, by decide, ⟨before, slice, after, hsplit, hnone, hsome⟩,
    hzero (by decide), hhalted.2 (by decide)⟩

end Pacer

end ChipEight
