import ChipEight.Proofs.Pacer.Slicing
import ChipEight.Proofs.Pacer.Summaries

/-!
# A second on the two clocks

A period is a whole number of nanoseconds: the second is divided, and what is left over is thrown away.
So periods are a little too short, and more of them fit into the time than were asked for as soon as
what was thrown away adds up to another one.

On the instruction clock that happens within the first second, at every rate at which the rest of the
division is as long as a period (`second_div_cyclePeriod_eq_iff`). At a usual rate it is not. On the
timer clock sixty periods leave forty nanoseconds of a second, so the first tick too many comes after
more than four days (`ticks_of_whole_seconds`).

**Main statements**: `summary_of_second` and `ticks_of_whole_seconds`.
-/

namespace ChipEight

namespace Machine

variable {m : Machine}

/-- An instruction that jumps to itself is carried out and changes nothing. -/
theorem Executes.cycle_of_spin {here : Address} (hop : m.Executes (.jump here))
    (hpc : m.pc = here.toWord) : m.cycle.outcome = .ok .proceed ∧ m.cycle.machine = m := by
  rw [hop.cycle_of_execute rfl, ← hpc]
  exact ⟨rfl, rfl⟩

/-- With both timers at rest ticks change nothing either, so all cycles are carried out. -/
theorem Executes.outcomes_of_spin {here : Address} (hop : m.Executes (.jump here))
    (hpc : m.pc = here.toWord) (hrest : m.timers.tick = m.timers) {events : List Event}
    (hevents : ∀ event ∈ events, event = .tick ∨ event = .cycle) :
    ∀ outcome ∈ m.outcomes events, outcome = .ok .proceed := by
  obtain ⟨houtcome, hcycle⟩ := hop.cycle_of_spin hpc
  have htick : m.tick = m := by rw [tick, hrest]
  induction events with
  | nil => exact List.forall_mem_nil _
  | cons event events ih =>
    rw [List.forall_mem_cons] at hevents
    rw [outcomes_cons, List.forall_mem_append]
    obtain ⟨rfl | rfl, hevents⟩ := hevents
    · rw [show m.apply .tick = m from htick]
      exact ⟨List.forall_mem_nil _, ih hevents⟩
    · rw [show m.apply .cycle = m from hcycle]
      exact ⟨List.forall_mem_singleton.2 houtcome, ih hevents⟩

end Machine

namespace Pacer

variable {m : Machine}

/-! ### The instruction clock -/

/-- What a machine without failures and waits makes of a duration, from new clocks on. -/
theorem summary_advance {duration : Nat} (h : duration ≤ longest)
    (hgoing : m.Unstopped ((new m).events duration)) :
    let s := (new m).advance duration
    s.fault = none ∧ s.seen.instructions = duration / (new m).period ∧
      s.seen.timerTicks = duration / tickPeriod := by
  intro s
  obtain ⟨hspent, hcycles⟩ := spent_advance (p := new m) (new m).period_pos duration
  obtain ⟨hticked, hticks⟩ := ticked_advance (p := new m) tickPeriod_pos duration
  have hbalance := hspent.balance hgoing
  rw [Nat.min_eq_left h, show (new m).cycleClock = 0 from rfl, Nat.zero_add] at hbalance
  rw [Nat.min_eq_left h, show (new m).tickClock = 0 from rfl, Nat.zero_add] at hticked
  refine ⟨Classical.byContradiction fun hfault ↦ hspent.stopped hfault hgoing, ?_, ?_⟩
  · rw [(new m).instructions_advance hgoing]
    exact ((Nat.div_mod_unique (new m).period_pos).2 ⟨hbalance, hcycles⟩).1.symm
  · rw [(new m).timerTicks_advance duration]
    exact ((Nat.div_mod_unique tickPeriod_pos).2 ⟨hticked, hticks⟩).1.symm

/-- A second divided by the period is the rate again if what is thrown away is shorter than a period. -/
theorem second_div_cyclePeriod_eq_iff (hz : UInt32) :
    second / cyclePeriod hz = hz.toNat ↔ second % hz.toNat < second / hz.toNat := by
  have hsecond : 0 < second := by decide
  rw [cyclePeriod]
  generalize hz.toNat = n, second = ns at hsecond ⊢
  rcases Nat.eq_zero_or_pos n with rfl | hn
  · rw [Nat.max_eq_left (Nat.zero_le 1), Nat.div_one, Nat.max_eq_right hsecond,
      Nat.div_self hsecond, Nat.div_zero]
    exact iff_of_false Nat.one_ne_zero (Nat.not_lt_zero _)
  · rw [Nat.max_eq_right hn]
    rcases Nat.lt_or_ge ns n with hlt | hge
    · rw [Nat.div_eq_of_lt hlt, Nat.max_eq_left (Nat.zero_le 1), Nat.div_one]
      exact iff_of_false (Nat.ne_of_lt hlt) (Nat.not_lt_zero _)
    · have hpos : 0 < ns / n := Nat.div_pos hge hn
      have hrest := Nat.div_add_mod ns n
      rw [Nat.max_eq_right hpos, Nat.div_eq_iff hpos]
      omega

/-- A machine that jumps from an instruction to the same one can be timed exactly. -/
theorem outcome_advance_of_spin {here : Address} (hop : m.Executes (.jump here))
    (hpc : m.pc = here.toWord) (hrest : m.timers.tick = m.timers) {duration : Nat}
    (h : duration ≤ longest) :
    m.Unstopped ((new m).events duration) ∧ ((new m).advance duration).outcome
      = .ok ⟨duration / (new m).period, duration / tickPeriod, false, false⟩ := by
  have hevents : ∀ event ∈ (new m).events duration, event = .tick ∨ event = .cycle :=
    fun _ ↦ (new m).mem_events
  have hall := hop.outcomes_of_spin hpc hrest hevents
  have hgoing : m.Unstopped ((new m).events duration) := by
    intro outcome hmem
    rw [hall outcome hmem]
    exact Bool.false_ne_true
  obtain ⟨hfault, hinstructions, hticks⟩ := summary_advance h hgoing
  refine ⟨hgoing, Progress.outcome_eq_ok_iff.2 ⟨hfault, ?_⟩⟩
  rw [← hinstructions, ← hticks, (new m).seen_advance, Summary.ofHistory, Summary.mk.injEq]
  refine ⟨rfl, rfl, List.any_eq_false.2 fun outcome hmem ↦ ?_,
    List.any_eq_false.2 fun outcome hmem ↦ ?_⟩ <;>
  · rw [hall outcome hmem]
    exact Bool.false_ne_true

/-- **A second of a machine that neither fails nor waits** comes to sixty ticks, and to as many
instructions as the period of the machine fits into it. These are as many as its rate says exactly if
the rate divides the second with a rest shorter than a period. -/
theorem summary_of_second (m : Machine) (hgoing : m.Unstopped ((new m).events second)) :
    let hz := m.config.cpuHz.toNat
    ∃ summary, ((new m).advance second).outcome = .ok summary ∧ summary.timerTicks = 60 ∧
      summary.instructions = second / cyclePeriod m.config.cpuHz ∧
      (summary.instructions = hz ↔ second % hz < second / hz) := by
  intro hz
  obtain ⟨hfault, hinstructions, hticks⟩ := summary_advance (by decide) hgoing
  refine ⟨_, Progress.outcome_eq_ok_iff.2 ⟨hfault, rfl⟩, hticks.trans (by decide), hinstructions, ?_⟩
  rw [hinstructions]
  exact second_div_cyclePeriod_eq_iff m.config.cpuHz

/-- An instruction that jumps to itself, at the usual rate. -/
theorem summary_of_usual_second :
    let m := (Machine.powerOn Config.usual (.ofSeed 0)).run [.load [0x12, 0x00]]
    m.Unstopped ((new m).events second) ∧ second % 700 < second / 700 ∧
      ∃ summary, ((new m).advance second).outcome = .ok summary ∧ summary.timerTicks = 60 ∧
        summary.instructions = 700 := by
  intro m
  have hspin : m.Executes (.jump 0x200) := ⟨by decide, by decide, by decide, by decide⟩
  obtain ⟨hgoing, -⟩ := outcome_advance_of_spin hspin rfl rfl (show second ≤ longest by decide)
  have hrest : second % 700 < second / 700 := by decide
  obtain ⟨summary, houtcome, hticks, -, hrate⟩ := summary_of_second m hgoing
  exact ⟨hgoing, hrest, summary, houtcome, hticks, hrate.2 hrest⟩

/-- The same instruction at a rate of sixty thousand, whose period of 16666 nanoseconds fits into a
second two times more than that. -/
theorem second_too_long_for_rate :
    let m := (Machine.powerOn { Config.usual with cpuHz := 60000 } (.ofSeed 0)).run [.load [0x12, 0x00]]
    m.Unstopped ((new m).events second) ∧
      ¬ ∃ summary, ((new m).advance second).outcome = .ok summary ∧
        summary.instructions = m.config.cpuHz.toNat ∧ summary.timerTicks = 60 := by
  intro m
  have hspin : m.Executes (.jump 0x200) := ⟨by decide, by decide, by decide, by decide⟩
  obtain ⟨hgoing, houtcome⟩ := outcome_advance_of_spin hspin rfl rfl (show second ≤ longest by decide)
  refine ⟨hgoing, ?_⟩
  rintro ⟨summary, hsummary, hinstructions, -⟩
  rw [houtcome, Except.ok.injEq] at hsummary
  have hcount : second / cyclePeriod 60000 = 60000 :=
    (congrArg Summary.instructions hsummary).trans hinstructions
  exact absurd hcount (by decide)

/-! ### The timer clock -/

/-- Whole seconds hold sixty timer periods each, and one more whenever what is left of them makes one
up. -/
theorem seconds_div_tickPeriod (n : Nat) :
    n * second / tickPeriod = 60 * n + 40 * n / tickPeriod := by
  have hsecond : second = tickPeriod * 60 + 40 := by decide
  rw [hsecond, Nat.mul_add, Nat.mul_left_comm, Nat.mul_add_div tickPeriod_pos, Nat.mul_comm n 60,
    Nat.mul_comm n 40]

/-- What is left of the seconds does not make up a period for four days and more. -/
theorem rest_div_tickPeriod_eq_zero_iff (n : Nat) : 40 * n / tickPeriod = 0 ↔ n < 416667 := by
  have hperiod : tickPeriod = 16666666 := by decide
  rw [Nat.div_eq_zero_iff_lt tickPeriod_pos, hperiod]
  omega

/-- **The ticks of a number of seconds**, whatever the program does and however they are cut into
updates. From new clocks on there are sixty in each second, and one more for each period that the rests
of forty nanoseconds make up; up to 416666 seconds they make up none. So from then on there are always
too many, unless an update is so long that it is cut short. -/
theorem ticks_of_whole_seconds (m : Machine) (durations : List Nat) (n : Nat)
    (h : Request.total (durations.map .update) = n * second) :
    let requests := durations.map Request.update
    let ticks := ((new m).history requests).count .tick
    ((new m).run requests).machine = m.run ((new m).history requests) ∧
      (n < 416667 → ticks = 60 * n) ∧
      ((∀ duration ∈ durations, duration ≤ longest) →
        ticks = 60 * n + 40 * n / tickPeriod ∧ (ticks = 60 * n ↔ n < 416667)) := by
  intro requests ticks
  have hticks : (∀ request ∈ requests, request.KeepsTime) →
      ticks = 60 * n + 40 * n / tickPeriod := by
    intro hkeeps
    have hcount := count_ticks (p := new m) tickPeriod_pos hkeeps (machine_notMem_updates _ _)
    rw [h, show (new m).tickClock = 0 from rfl, Nat.zero_add, seconds_div_tickPeriod] at hcount
    exact hcount
  refine ⟨machine_run _ _, fun hfew ↦ ?_, fun hdurations ↦ ?_⟩
  · have htotal : Request.total requests ≤ longest := by
      have hmany : 416667 * second ≤ longest := by decide
      exact h ▸ Nat.le_trans (Nat.mul_le_mul_right second (Nat.le_of_lt hfew)) hmany
    rw [hticks (keepsTime_updates htotal), (rest_div_tickPeriod_eq_zero_iff n).2 hfew, Nat.add_zero]
  · have hexact := hticks (List.forall_mem_map.2 hdurations)
    refine ⟨hexact, ?_⟩
    rw [hexact, Nat.add_eq_left]
    exact rest_div_tickPeriod_eq_zero_iff n

/-- Three seconds in three pieces, of a machine that fails at once. -/
theorem ticks_of_three_seconds :
    let m := (Machine.powerOn Config.usual (.ofSeed 0)).run [.load [0x51, 0x21]]
    let durations := [1500000000, 1000000000, 500000000]
    Request.total (durations.map .update) = 3 * second ∧
      ((new m).run (durations.map .update)).machine.fault = some (.invalidInstruction 0x5121) ∧
      ((new m).history (durations.map .update)).count .tick = 180 := by
  intro m durations
  have htotal : Request.total (durations.map .update) = 3 * second := by decide
  obtain ⟨-, hticks, -⟩ := ticks_of_whole_seconds m durations 3 htotal
  exact ⟨htotal, by decide +kernel, hticks (by decide)⟩

/-- One second more than 416666 in one update, and one tick more than sixty in each. -/
theorem tick_too_many_after_days :
    let m := (Machine.powerOn { Config.usual with cpuHz := 1 } (.ofSeed 0)).run [.load [0x12, 0x00]]
    let durations := [416667000000000]
    Request.total (durations.map .update) = 416667 * second ∧
      ((new m).history (durations.map .update)).count .tick = 60 * 416667 + 1 := by
  intro m durations
  have htotal : Request.total (durations.map .update) = 416667 * second := by decide
  have hkeeps := keepsTime_updates (Nat.le_trans (Nat.le_of_eq htotal) (by decide))
  have hcount := count_ticks (p := new m) tickPeriod_pos hkeeps (machine_notMem_updates _ _)
  refine ⟨htotal, hcount.trans ?_⟩
  rw [htotal]
  decide

end Pacer

end ChipEight
