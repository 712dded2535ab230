import ChipEight.Proofs.Machine.Footprint
import ChipEight.Proofs.Machine.Frame
import ChipEight.Proofs.Pacer.Failures

/-!
# What a summary tells of the machine

A summary is made of what cycles come to, one after the other, and is read when all of them are over. Two
of its fields are flags that stay raised, while the machine goes on. That they are still true at the end
has a different reason for each.

* That the display has **changed** is said of the update as a whole, and a display that no cycle of it
  wrote is the one it began with.
* That the machine **waits** is said of its end. A cycle that finds the machine waiting leaves it without
  a latched press, and an update presses no key; so whatever ticks and cycles follow, it waits still
  (`Waits.run_of_update`). The other way round, a machine that waits at the end of an update with a
  cycle in it has been found waiting by one, as any other cycle leaves it awake (`awake_run`).

**Main statement**: `run_new_reports`.
-/

namespace ChipEight

theorem Opcode.signal_eq_waitingForKey_iff {op : Opcode} :
    op.signal = .waitingForKey ↔ ∃ x, op = .awaitKey x := by
  constructor
  · intro h
    cases op with
    | awaitKey x => exact ⟨x, rfl⟩
    | _ => cases h
  · rintro ⟨x, rfl⟩
    rfl

namespace Machine

variable {m : Machine} {events : List Event} {signal : Signal} {x k : Digit} {pc : UInt16}

theorem mem_outcomes_iff {outcome : Except Fault Signal} :
    outcome ∈ m.outcomes events ↔
      ∃ t ∈ m.moments events, t.event = .cycle ∧ t.machine.cycle.outcome = outcome := by
  rw [outcomes, List.mem_filterMap]
  refine exists_congr fun t ↦ and_congr_right fun _ ↦ ?_
  obtain ⟨n, event⟩ := t
  cases event with
  | cycle => exact Option.some_inj.trans (and_iff_right rfl).symm
  | tick | key | load | reset => simp [Moment.outcome?]

/-- An outcome of a history cuts it at a cycle into what came before and what came after. -/
theorem exists_of_outcomes_eq {before after : List (Except Fault Signal)}
    {outcome : Except Fault Signal} (h : m.outcomes events = before ++ outcome :: after) :
    ∃ earlier later, events = earlier ++ .cycle :: later ∧ (m.run earlier).cycle.outcome = outcome ∧
      (m.run earlier).cycle.machine.outcomes later = after := by
  obtain ⟨_, rest, hsplit, -, hrest⟩ := List.filterMap_eq_append_iff.1 h
  obtain ⟨_, ⟨n, event⟩, _, rfl, -, houtcome, rfl⟩ := List.filterMap_eq_cons_iff.1 hrest
  rw [← List.append_assoc] at hsplit
  obtain ⟨earlier, later, rfl, -, rfl, rfl⟩ := exists_of_moments_eq hsplit
  cases event with
  | cycle => exact ⟨earlier, later, rfl, Option.some.inj houtcome, rfl⟩
  | tick | key | load | reset => cases houtcome

/-! ### Looks at the keypad -/

/-- A look finds a key exactly if one is latched, and then the wait is over. -/
theorem pollKey_cases (m : Machine) (x : Digit) :
    (∀ k, m.keypad.latched.has k = false) ∧ (m.pollKey x).1 = .waitingForKey ∨
      (∃ k, m.keypad.latched.has k = true) ∧ (m.pollKey x).1 = .proceed ∧
        (m.pollKey x).2.keyWait = none := by
  rw [pollKey, Keypad.takePress]
  rcases hleast : m.keypad.latched.least? with - | k
  · exact .inl ⟨(KeySet.least?_eq_none_iff _).1 hleast, rfl⟩
  · exact .inr ⟨⟨k, ((KeySet.least?_eq_some_iff _).1 hleast).1⟩, rfl, rfl⟩

/-- **A cycle tells of a wait exactly if it begins one or looks in vain.** -/
theorem signal_eq_waitingForKey_iff (running : m.fault = none) (done : m.cycle.outcome = .ok signal) :
    signal = .waitingForKey ↔ (∃ x, m.Executes (.awaitKey x)) ∨
      (∃ x, m.keyWait = some x) ∧ ∀ k, m.keypad.latched.has k = false := by
  rcases executes_or_waits running done with ⟨op, hop⟩ | ⟨x, waiting⟩
  · have hsignal : signal = op.signal := signal_of_execute (hop.exists_of_outcome done)
    rw [hsignal, Opcode.signal_eq_waitingForKey_iff]
    constructor
    · rintro ⟨x, rfl⟩
      exact .inl ⟨x, hop⟩
    · rintro (⟨x, hwait⟩ | ⟨⟨x, waiting⟩, -⟩)
      · exact ⟨x, Option.some.inj (hop.reads.symm.trans hwait.reads)⟩
      · cases hop.awake.symm.trans waiting
  · rw [cycle_of_keyWait running waiting] at done
    obtain rfl := Except.ok.inj done
    rw [or_iff_right fun ⟨_, hop⟩ ↦ by cases hop.awake.symm.trans waiting]
    rcases m.pollKey_cases x with ⟨hnone, hlook⟩ | ⟨⟨k, hlatched⟩, hlook, -⟩
    · exact iff_of_true hlook ⟨⟨x, waiting⟩, hnone⟩
    · rw [hlook]
      exact iff_of_false nofun fun ⟨_, hnone⟩ ↦ by cases hlatched.symm.trans (hnone k)

/-- A look that finds a key is an instruction. -/
theorem outcome_of_latched (running : m.fault = none) (waiting : m.keyWait = some x)
    (latched : m.keypad.latched.has k = true) : m.cycle.outcome = .ok .proceed := by
  rw [cycle_of_keyWait running waiting]
  rcases m.pollKey_cases x with ⟨hnone, -⟩ | ⟨-, hlook, -⟩
  · cases latched.symm.trans (hnone k)
  · exact congrArg Except.ok hlook

/-! ### Waits in an update -/

/-- No tick and no cycle presses a key. -/
theorem not_pressed_of_update (h : ∀ event ∈ events, event = .tick ∨ event = .cycle) (k : Digit) :
    ¬ m.Pressed events k := by
  rintro ⟨t, ht, hpress, -⟩
  rcases h _ (event_mem_of_mem_moments ht) with hevent | hevent <;> cases hevent.symm.trans hpress

/-- **A wait outlasts the update it is found in**, and every further cycle finds it. -/
theorem Waits.run_of_update (h : Waits x pc m) (unlatched : ∀ k, m.keypad.latched.has k = false)
    (hevents : ∀ event ∈ events, event = .tick ∨ event = .cycle) :
    (Waits x pc (m.run events) ∧ ∀ k, (m.run events).keypad.latched.has k = false) ∧
      ∀ outcome ∈ m.outcomes events, outcome = .ok .waitingForKey := by
  have hwait (first : List Event) (hfirst : ∀ event ∈ first, event = .tick ∨ event = .cycle) :
      Waits x pc (m.run first) ∧ ∀ k, (m.run first).keypad.latched.has k = false :=
    h.run_of_not_pressed unlatched (Event.not_restarts_of_update hfirst) (not_pressed_of_update hfirst)
  refine ⟨hwait events hevents, fun outcome houtcome ↦ ?_⟩
  obtain ⟨t, ht, -, rfl⟩ := mem_outcomes_iff.1 houtcome
  obtain ⟨before, after, hsplit⟩ := List.append_of_mem ht
  obtain ⟨earlier, later, rfl, -, hmachine, -⟩ := exists_of_moments_eq hsplit
  obtain ⟨hwaits, hnone⟩ := hwait earlier fun event hevent ↦
    hevents event (List.mem_append_left _ hevent)
  rw [hmachine, hwaits.cycle_of_unlatched hnone]

/-- A cycle that tells of a wait leaves a machine that waits, with no key latched. -/
theorem waits_of_outcome (h : m.cycle.outcome = .ok .waitingForKey) :
    ∃ x pc, Waits x pc m.cycle.machine ∧ ∀ k, m.cycle.machine.keypad.latched.has k = false := by
  have hidle : m.cycle.machine.Idle := idle_of_stopsClock (by rw [h]; rfl)
  cases hidle with
  | failed halted =>
    have hfault := m.fault_cycle
    rw [Cycle.failure?, h, Option.or_none, halted] at hfault
    rw [cycle_of_fault hfault.symm] at h
    cases h
  | waiting waits unlatched => exact ⟨_, _, waits, unlatched⟩

/-- **Once a cycle tells of a wait, all that follow in the update do**, and the machine waits at the
end. -/
theorem wait_lasts {before after : List (Except Fault Signal)}
    (hevents : ∀ event ∈ events, event = .tick ∨ event = .cycle)
    (h : m.outcomes events = before ++ .ok .waitingForKey :: after) :
    (∃ x, (m.run events).keyWait = some x) ∧
      (∀ k, (m.run events).keypad.latched.has k = false) ∧
        ∀ outcome ∈ after, outcome = .ok .waitingForKey := by
  obtain ⟨earlier, later, rfl, houtcome, rfl⟩ := exists_of_outcomes_eq h
  rw [List.forall_mem_append, List.forall_mem_cons] at hevents
  obtain ⟨x, _, hwaits, hnone⟩ := waits_of_outcome houtcome
  obtain ⟨⟨hend, hlatched⟩, hlater⟩ := hwaits.run_of_update hnone hevents.2.2
  rw [run_append, run_cons]
  exact ⟨⟨x, hend.waiting⟩, hlatched, hlater⟩

/-- A cycle that does not stop the clock leaves a machine that waits for nothing. -/
theorem keyWait_cycle (h : ¬ Pacer.stopsClock m.cycle.outcome) : m.cycle.machine.keyWait = none := by
  cases m.beat with
  | halted _ result | unfetched _ _ _ result | unread _ _ _ _ result | refused _ _ result =>
    rw [result] at h
    exact absurd rfl h
  | @polled x _ _ result =>
    rw [result] at h ⊢
    rcases m.pollKey_cases x with ⟨-, hlook⟩ | ⟨-, -, hnone⟩
    · rw [hlook] at h
      exact absurd rfl h
    · exact hnone
  | @done op signal next hop done result =>
    rw [result] at h ⊢
    show next.keyWait = none
    have hsignal := signal_of_execute done
    cases effect_of_execute done with
    | await => exact absurd (by rw [hsignal]; rfl) h
    | _ => exact hop.awake

/-- **A machine that is awake stays so until a cycle stops the clock.** -/
theorem awake_run (awake : m.keyWait = none)
    (hevents : ∀ event ∈ events, event = .tick ∨ event = .cycle) (hgoing : m.Unstopped events) :
    (m.run events).keyWait = none := by
  induction events generalizing m with
  | nil => exact awake
  | cons event events ih =>
    rw [List.forall_mem_cons] at hevents
    obtain ⟨rfl | rfl, hevents⟩ := hevents
    · exact ih awake hevents (unstopped_tick.1 hgoing)
    · obtain ⟨hgoes, hgoing⟩ := unstopped_cycle.1 hgoing
      exact ih (keyWait_cycle hgoes) hevents hgoing

end Machine

namespace Moment

variable {t : Moment}

/-- A cycle that does not fail is made by a machine that has not failed, and tells something. -/
theorem exists_signal (hcycle : t.event = .cycle) (unfailed : t.failure? = none) :
    t.machine.fault = none ∧ ∃ signal, t.machine.cycle.outcome = .ok signal := by
  obtain ⟨m, event⟩ := t
  obtain rfl : event = .cycle := hcycle
  rcases houtcome : m.cycle.outcome with fault | signal
  · cases unfailed.symm.trans (Cycle.failure?_eq_some_iff.2 houtcome)
  · refine ⟨?_, signal, rfl⟩
    rcases hfault : m.fault with - | fault
    · rfl
    · rw [Machine.cycle_of_fault hfault] at houtcome
      cases houtcome

/-- What neither clears the display nor draws on it, nor starts again, leaves it as it is. -/
theorem display_after_of_not_executes (hrestart : ¬ t.event.restarts)
    (hnone : ¬ (t.Executes .clearScreen ∨ ∃ x y n, t.Executes (.draw x y n))) :
    t.after.display = t.machine.display := by
  rcases hcarried : t.carried? with - | op
  · obtain ⟨_, _, _, _, _, hafter⟩ := after_of_not_carried hcarried hrestart
    rw [hafter]
  · rw [(outputs_of_carried hcarried).1]
    have hop := (carried?_eq_some_iff.1 hcarried).1
    cases op with
    | clearScreen => exact absurd (.inl hop) hnone
    | draw x y n => exact absurd (.inr ⟨x, y, n, hop⟩) hnone
    | _ => rfl

/-- A cycle that does not fail tells of a new display exactly if it clears the display or draws on it. -/
theorem tells_of_display_iff (unfailed : t.failure? = none) :
    (t.event = .cycle ∧ t.machine.cycle.outcome = .ok .displayChanged) ↔
      t.Executes .clearScreen ∨ ∃ x y n, t.Executes (.draw x y n) := by
  by_cases hcycle : t.event = .cycle
  · obtain ⟨running, signal, done⟩ := exists_signal hcycle unfailed
    have hsignal := Machine.signal_eq_displayChanged_iff running done
    simp only [Executes, hcycle, true_and, done, Except.ok.injEq]
    exact hsignal
  · simp only [Executes, hcycle, false_and, exists_false, or_false]

/-- And it tells of a wait exactly if it begins one or looks in vain. -/
theorem tells_of_wait_iff (hcycle : t.event = .cycle) (unfailed : t.failure? = none) :
    t.machine.cycle.outcome = .ok .waitingForKey ↔ (∃ x, t.Executes (.awaitKey x)) ∨
      (∃ x, t.machine.keyWait = some x) ∧ ∀ k, t.machine.keypad.latched.has k = false := by
  obtain ⟨running, signal, done⟩ := exists_signal hcycle unfailed
  have hsignal := Machine.signal_eq_waitingForKey_iff running done
  simp only [Executes, hcycle, true_and, done, Except.ok.injEq]
  exact hsignal

end Moment

/-- A history in which the display is neither cleared nor drawn on leaves it as it is. -/
theorem Machine.display_run_of_not_executes {m : Machine} {events : List Event}
    (hrestart : ∀ event ∈ events, ¬ event.restarts)
    (hnone : ∀ t ∈ m.moments events,
      ¬ (t.Executes .clearScreen ∨ ∃ x y n, t.Executes (.draw x y n))) :
    (m.run events).display = m.display :=
  run_of_moments (P := fun n ↦ n.display = m.display) (Q := fun t ↦ t ∈ m.moments events)
    (fun t ht hsame ↦ (Moment.display_after_of_not_executes
      (hrestart _ (event_mem_of_mem_moments ht)) (hnone t ht)).trans hsame) rfl _ fun _ ht ↦ ht

namespace Summary

variable {m : Machine} {events : List Event}

theorem displayChanged_ofHistory :
    (ofHistory m events).displayChanged = true ↔ .ok .displayChanged ∈ m.outcomes events := by
  have htells (outcome : Except Fault Signal) :
      (Move.cycle outcome []).changesDisplay = true ↔ outcome = .ok .displayChanged := by
    rcases outcome with _ | (_ | _ | _) <;> simp [Move.changesDisplay]
  simp only [ofHistory, List.any_eq_true, htells, exists_eq_right]

theorem waitingForKey_ofHistory :
    (ofHistory m events).waitingForKey = true ↔ .ok .waitingForKey ∈ m.outcomes events := by
  have htells (outcome : Except Fault Signal) :
      (Move.cycle outcome []).waits = true ↔ outcome = .ok .waitingForKey := by
    rcases outcome with _ | (_ | _ | _) <;> simp [Move.waits]
  simp only [ofHistory, List.any_eq_true, htells, exists_eq_right]

theorem instructions_ofHistory :
    (ofHistory m events).instructions
      = (m.outcomes events).count (.ok .proceed) + (m.outcomes events).count (.ok .displayChanged) := by
  rw [ofHistory]
  induction m.outcomes events with
  | nil => rfl
  | cons outcome outcomes ih =>
    dsimp only at ih ⊢
    rw [List.countP_cons, ih, List.count_cons, List.count_cons]
    rcases outcome with _ | (_ | _ | _) <;> simp [Move.isInstruction] <;> omega

end Summary

namespace Pacer

variable {p : Pacer} {duration : Nat}

/-- An update that succeeds has made no cycle that fails. -/
theorem unfailed_advance (hclock : p.tickClock < tickPeriod)
    (hfault : (p.advance duration).fault = none) :
    ∀ t ∈ p.machine.moments (p.events duration), t.failure? = none := by
  rw [← (course hclock duration).findSome?_eq, List.findSome?_eq_none_iff] at hfault
  exact hfault

/-- **A cycle of an update has told of a wait exactly if one is due and the machine waits at the end.** -/
theorem waits_advance_iff (hcycles : p.cycleClock < p.period)
    (unfailed : ∀ t ∈ p.machine.moments (p.events duration), t.failure? = none) :
    .ok .waitingForKey ∈ p.machine.outcomes (p.events duration) ↔
      p.period ≤ p.cycleClock + duration ∧
        ∃ x, (p.machine.run (p.events duration)).keyWait = some x := by
  have hevents : ∀ event ∈ p.events duration, event = .tick ∨ event = .cycle :=
    fun _ ↦ p.mem_events
  rw [← cycle_mem_events_iff hcycles duration]
  generalize p.events duration = events at unfailed hevents
  constructor
  · intro hmem
    obtain ⟨before, after, hsplit⟩ := List.append_of_mem hmem
    refine ⟨?_, (Machine.wait_lasts hevents hsplit).1⟩
    obtain ⟨earlier, later, rfl, -⟩ := Machine.exists_of_outcomes_eq hsplit
    exact List.mem_append_right _ List.mem_cons_self
  · rintro ⟨hmem, x, waiting⟩
    refine Classical.byContradiction fun hnone ↦ ?_
    have hgoing : p.machine.Unstopped events := by
      intro outcome houtcome
      obtain ⟨t, ht, hcycle, rfl⟩ := Machine.mem_outcomes_iff.1 houtcome
      obtain ⟨-, signal, hsignal⟩ := Moment.exists_signal hcycle (unfailed t ht)
      rw [hsignal] at houtcome ⊢
      cases signal with
      | waitingForKey => exact absurd houtcome hnone
      | proceed | displayChanged => exact Bool.false_ne_true
    -- So the cycle that is due leaves the machine awake, and it stays so.
    obtain ⟨before, after, rfl⟩ := List.append_of_mem hmem
    rw [List.forall_mem_append, List.forall_mem_cons] at hevents
    rw [Machine.unstopped_append, Machine.unstopped_cycle] at hgoing
    have hawake := Machine.awake_run (Machine.keyWait_cycle hgoing.2.1) hevents.2.2 hgoing.2.2
    rw [Machine.run_append, Machine.run_cons] at waiting
    cases hawake.symm.trans waiting

/-- **What a summary says is true**, whatever has been asked of a pacer before. If an update succeeds,
its summary tells of a new display exactly if `00E0` or `DXYN` has been carried out in it, and the display
is the same if not; it tells of a wait exactly if a cycle was due and the machine waits at the end, and
then no key is latched; and it counts the cycles that proceeded, with a new display or without. An awaited
key that is found counts, but neither the beginning of a wait nor a look in vain, and once a cycle has
told of a wait the others of the update do. -/
theorem run_new_reports (m : Machine) (requests : List Request) :
    let p := (new m).run requests
    let c := max 1 (1000000000 / max 1 m.config.cpuHz.toNat)
    ∀ d summary, (p.advance d).outcome = .ok summary →
      let q := (p.advance d).pacer.machine
      let moments := p.machine.moments (p.events d)
      let outcomes := p.machine.outcomes (p.events d)
      q = p.machine.run (p.events d) ∧
        (summary.displayChanged = true ↔
          ∃ t ∈ moments, t.Executes .clearScreen ∨ ∃ x y n, t.Executes (.draw x y n)) ∧
        (summary.displayChanged = false → q.display = p.machine.display) ∧
        (summary.waitingForKey = true ↔ c ≤ p.cycleClock + d ∧ ∃ x, q.keyWait = some x) ∧
        (summary.waitingForKey = true → ∀ k, q.keypad.latched.has k = false) ∧
        summary.instructions = outcomes.count (.ok .proceed) + outcomes.count (.ok .displayChanged) ∧
        (∀ t ∈ moments, t.event = .cycle →
          (t.machine.cycle.outcome = .ok .waitingForKey ↔ (∃ x, t.Executes (.awaitKey x)) ∨
            (∃ x, t.machine.keyWait = some x) ∧ ∀ k, t.machine.keypad.latched.has k = false) ∧
          ∀ x, t.machine.keyWait = some x → ∀ k, t.machine.keypad.latched.has k = true →
            t.machine.cycle.outcome = .ok .proceed) ∧
        ∀ before after, outcomes = before ++ .ok .waitingForKey :: after →
          ∀ outcome ∈ after, outcome = .ok .waitingForKey := by
  intro p c d summary hok q moments outcomes
  have hperiod : p.period = c := period_run (new m) requests
  have hcycles : p.cycleClock < p.period := cycleClock_run_lt (new m).period_pos requests
  have hticks : p.tickClock < tickPeriod := tickClock_run_lt tickPeriod_pos requests
  have hevents : ∀ event ∈ p.events d, event = .tick ∨ event = .cycle := fun _ ↦ p.mem_events
  obtain ⟨hfault, hseen⟩ := Progress.outcome_eq_ok_iff.1 hok
  have hmachine : q = p.machine.run (p.events d) := p.machine_advance d
  have unfailed := unfailed_advance hticks hfault
  rw [seen_advance] at hseen
  subst hseen
  have hdisplay : (Summary.ofHistory p.machine (p.events d)).displayChanged = true ↔
      ∃ t ∈ moments, t.Executes .clearScreen ∨ ∃ x y n, t.Executes (.draw x y n) := by
    rw [Summary.displayChanged_ofHistory, Machine.mem_outcomes_iff]
    exact exists_congr fun t ↦ and_congr_right fun ht ↦ Moment.tells_of_display_iff (unfailed t ht)
  refine ⟨hmachine, hdisplay, fun hnone ↦ ?_, ?_, fun hwait ↦ ?_, Summary.instructions_ofHistory,
    fun t ht hcycle ↦ ?_, fun before after hsplit ↦ (Machine.wait_lasts hevents hsplit).2.2⟩
  · rw [← Bool.not_eq_true, hdisplay] at hnone
    rw [hmachine]
    exact Machine.display_run_of_not_executes (Event.not_restarts_of_update hevents)
      fun t ht hop ↦ hnone ⟨t, ht, hop⟩
  · rw [Summary.waitingForKey_ofHistory, hmachine, ← hperiod]
    exact waits_advance_iff hcycles unfailed
  · obtain ⟨before, after, hsplit⟩ :=
      List.append_of_mem (Summary.waitingForKey_ofHistory.1 hwait)
    rw [hmachine]
    exact (Machine.wait_lasts hevents hsplit).2.1
  · obtain ⟨running, -⟩ := Moment.exists_signal hcycle (unfailed t ht)
    exact ⟨Moment.tells_of_wait_iff hcycle (unfailed t ht),
      fun x waiting k latched ↦ Machine.outcome_of_latched running waiting latched⟩

/-- A key has been pressed for a machine that waits. The next update takes it, clears the display, waits
for another and looks for it in vain: two instructions in four cycles, and three ticks. -/
theorem wait_after_wait :
    let m := (Machine.powerOn { Config.usual with cpuHz := 100 } (.ofSeed 0)).run
      [.load [0xF1, 0x0A, 0x00, 0xE0, 0xF2, 0x0A]]
    let p := (new m).run [.update 20000000, .machine (.key 7 true)]
    let q := (p.advance 55000000).pacer.machine
    let outcomes := p.machine.outcomes (p.events 55000000)
    (p.advance 55000000).outcome = .ok ⟨2, 3, true, true⟩ ∧ p.cycleClock = 3333334 ∧
      outcomes = [.ok .proceed, .ok .displayChanged, .ok .waitingForKey, .ok .waitingForKey] ∧
      2 = outcomes.count (.ok .proceed) + outcomes.count (.ok .displayChanged) ∧
      (∃ t ∈ p.machine.moments (p.events 55000000),
        t.Executes .clearScreen ∨ ∃ x y n, t.Executes (.draw x y n)) ∧
      10000000 ≤ p.cycleClock + 55000000 ∧ (∃ x, q.keyWait = some x) ∧
        ∀ k, q.keypad.latched.has k = false := by
  intro m p q outcomes
  have hok : (p.advance 55000000).outcome = .ok ⟨2, 3, true, true⟩ := by decide
  have hperiod : max 1 (1000000000 / max 1 m.config.cpuHz.toNat) = 10000000 := by decide
  have hreport :=
    run_new_reports m [.update 20000000, .machine (.key 7 true)] 55000000 ⟨2, 3, true, true⟩ hok
  rw [show (new m).run [.update 20000000, .machine (.key 7 true)] = p from rfl, hperiod,
    show (p.advance 55000000).pacer.machine = q from rfl] at hreport
  obtain ⟨-, hdisplay, -, hwaiting, hlatched, hcount, -⟩ := hreport
  obtain ⟨hdue, hwaits⟩ := hwaiting.1 rfl
  exact ⟨hok, by decide, by decide, hcount, hdisplay.1 rfl, hdue, hwaits, hlatched rfl⟩

end Pacer

end ChipEight
