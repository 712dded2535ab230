import ChipEight.Proofs.Machine.KeyWait
import ChipEight.Proofs.Machine.Noninterference
import ChipEight.Proofs.Pacer.Budget

/-!
# The same time in other pieces

Whoever holds a pacer cuts time into updates as they like: a display redraws now and then, and the
program should not notice. Two ways to cut the same time do not even make the same number of cycles, as
a cycle that stops the clock throws away what is left of its slice, and where slices end is a matter of
the cut. Nor do their ticks fall between the same cycles.

Both are compared with a third run, which makes one cycle after the other without a tick, as many as the
whole time has room for. Up to the first cycle that stops the clock a cut makes the same cycles, and the
ticks between them go unnoticed by a program that does not read the delay timer. From there on the
machine is **idle** (`Idle`): a cycle finds nothing to do, so that it makes no difference how many there
are.

**Main statements**: `Alike.run_cycles` and `run_updates_slicing`.
-/

namespace ChipEight

namespace Machine

variable {m m' next : Machine} {op : Opcode} {signal : Signal}

/-! ### Idle machines -/

/-- A machine on which a cycle finds nothing to do: it has failed, or it waits for a key and none has
been pressed. -/
inductive Idle (m : Machine) : Prop where
  | failed {fault : Fault} (h : m.fault = some fault)
  | waiting {x : Digit} (waits : Waits x m.pc m) (unlatched : ∀ k, m.keypad.latched.has k = false)

theorem Idle.cycle (h : m.Idle) : m.cycle.machine = m := by
  cases h with
  | failed h => rw [cycle_of_fault h]
  | waiting waits unlatched => rw [waits.cycle_of_unlatched unlatched]

theorem Idle.tick (h : m.Idle) : m.tick.Idle := by
  cases h with
  | failed h => exact .failed h
  | waiting waits unlatched => exact .waiting ⟨waits.running, waits.waiting, rfl⟩ unlatched

theorem Idle.not_executes (h : m.Idle) : ¬ m.Executes op := by
  intro hop
  cases h with
  | failed h => cases hop.running.symm.trans h
  | waiting waits => cases hop.awake.symm.trans waits.waiting

/-- Of the instructions that are carried out only the one that waits for a key stops the clock. -/
theorem eq_awaitKey_of_execute (h : m.execute op = .ok (signal, next))
    (hstop : Pacer.stopsClock (.ok signal)) : ∃ x, next = m.awaitKey x := by
  cases op with
  | awaitKey x =>
    obtain ⟨-, rfl⟩ := Prod.mk.inj (Except.ok.inj h)
    exact ⟨x, rfl⟩
  | ret | call | draw | storeDecimal | storeRegisters | loadRegisters =>
    obtain ⟨_, -, h⟩ := map_eq_ok_iff.1 h
    obtain ⟨rfl, -⟩ := Prod.mk.inj h
    cases hstop
  | _ =>
    obtain ⟨rfl, -⟩ := Prod.mk.inj (Except.ok.inj h)
    cases hstop

/-- **A cycle that stops the clock leaves the machine idle.** -/
theorem idle_of_stopsClock (h : Pacer.stopsClock m.cycle.outcome) : m.cycle.machine.Idle := by
  cases m.beat with
  | halted halted result =>
    rw [result]
    exact .failed halted
  | @polled x running waiting result =>
    rw [result] at h ⊢
    unfold pollKey at h ⊢
    rcases hpress : m.keypad.takePress with - | press
    · exact .waiting ⟨running, waiting, rfl⟩
        ((KeySet.least?_eq_none_iff _).1 (Option.map_eq_none_iff.1 hpress))
    · rw [hpress] at h
      cases h
  | unfetched _ _ _ result | unread _ _ _ _ result | refused _ _ result =>
    rw [result]
    exact .failed rfl
  | done hop done result =>
    rw [result] at h ⊢
    obtain ⟨x, rfl⟩ := eq_awaitKey_of_execute done h
    exact .waiting ⟨hop.running, rfl, rfl⟩ KeySet.has_empty

/-! ### Ticks and cycles -/

/-- No `FX07` is carried out in a history. -/
def DelayUnread (m : Machine) (events : List Event) : Prop :=
  ∀ t ∈ m.moments events, ∀ x, ¬ t.Executes (.readDelay x)

instance (m : Machine) (events : List Event) : Decidable (m.DelayUnread events) :=
  inferInstanceAs (Decidable (∀ t ∈ m.moments events, ∀ x, ¬ t.Executes (.readDelay x)))

theorem delayUnread_tick {events : List Event} :
    m.DelayUnread (.tick :: events) ↔ m.tick.DelayUnread events := by
  rw [DelayUnread, moments_cons, List.forall_mem_cons]
  exact and_iff_right fun _ hop ↦ nomatch hop.1

theorem delayUnread_cycle {events : List Event} :
    m.DelayUnread (.cycle :: events) ↔
      (∀ x, ¬ m.Executes (.readDelay x)) ∧ m.cycle.machine.DelayUnread events := by
  rw [DelayUnread, moments_cons, List.forall_mem_cons]
  exact and_congr_left' (forall_congr' fun x ↦ not_congr (and_iff_right rfl))

theorem alike_tick (m : Machine) : Alike .timers m m.tick :=
  have hmoved : Part.timers.movedBy .tick = true := rfl
  alike_of_movedBy (by nofun) hmoved

/-- The timers are all that they may differ in. -/
theorem Alike.exists_timers (h : Alike .timers m m') : ∃ timers, m' = { m with timers } := by
  refine ⟨m'.timers, ?_⟩
  have hmachine := h.eq
  rw [h.keypad_eq nofun, h.generator_eq nofun] at hmachine
  exact hmachine

/-- Whatever ticks and cycles happen to an idle machine, nothing but its timers changes, and no
instruction is carried out. -/
theorem Idle.run (h : m.Idle) {events : List Event}
    (hevents : ∀ event ∈ events, event = .tick ∨ event = .cycle) :
    m.DelayUnread events ∧ Alike .timers m (m.run events) := by
  have hstep : ∀ t : Moment, (t.event = .tick ∨ t.event = .cycle) →
      t.machine.Idle ∧ Alike .timers m t.machine → t.after.Idle ∧ Alike .timers m t.after := by
    rintro ⟨n, event⟩ (rfl | rfl) ⟨hidle, halike⟩
    · exact ⟨hidle.tick, halike.trans n.alike_tick⟩
    · show n.cycle.machine.Idle ∧ Alike .timers m n.cycle.machine
      rw [hidle.cycle]
      exact ⟨hidle, halike⟩
  have hmoments : ∀ t ∈ m.moments events, t.event = .tick ∨ t.event = .cycle :=
    fun t ht ↦ hevents _ (event_mem_of_mem_moments ht)
  have hstart : m.Idle ∧ Alike .timers m m := ⟨h, .refl nofun⟩
  have hidle := machine_of_mem_moments (P := fun n ↦ n.Idle ∧ Alike .timers m n) hstep hstart hmoments
  have hend := run_of_moments (P := fun n ↦ n.Idle ∧ Alike .timers m n) hstep hstart events hmoments
  exact ⟨fun t ht x hop ↦ (hidle t ht).1.not_executes hop.2, hend.2⟩

theorem reads_timers_eq_false (h : ∀ x, ¬ m.Executes (.readDelay x)) (hop : m.Executes op) :
    Part.timers.reads op = false := by
  cases op with
  | readDelay x => exact absurd hop (h x)
  | _ => rfl

/-- **Ticks and cycles compared with cycles alone.** If there are as many cycles in both histories, or
fewer in the first because one of them has stopped the clock, then an `FX07` is carried out in one
exactly if one is in the other, and if none is, the machines are alike afterwards. -/
theorem Alike.run_cycles (h : Alike .timers m m') {events : List Event} {n : Nat}
    (hevents : ∀ event ∈ events, event = .tick ∨ event = .cycle) (hle : events.count .cycle ≤ n)
    (hgoing : m.Unstopped events → events.count .cycle = n) :
    (m.DelayUnread events ↔ m'.DelayUnread (List.replicate n .cycle)) ∧
      (m.DelayUnread events →
        Alike .timers (m.run events) (m'.run (List.replicate n .cycle))) := by
  induction events generalizing m m' n with
  | nil =>
    obtain rfl : 0 = n := hgoing (List.forall_mem_nil _)
    exact ⟨iff_of_true (List.forall_mem_nil _) (List.forall_mem_nil _), fun _ ↦ h⟩
  | cons event events ih =>
    rw [List.forall_mem_cons] at hevents
    obtain ⟨rfl | rfl, hevents⟩ := hevents
    · -- A tick moves the timers of the one machine, and the other waits for its next cycle.
      rw [unstopped_tick] at hgoing
      rw [delayUnread_tick]
      exact ih (m.alike_tick.symm.trans h) hevents hle hgoing
    · rw [List.count_cons_self] at hle hgoing
      obtain ⟨n, rfl⟩ := Nat.exists_eq_add_of_le' (Nat.le_trans (Nat.le_add_left 1 _) hle)
      rw [unstopped_cycle] at hgoing
      rw [List.replicate_succ, delayUnread_cycle, delayUnread_cycle]
      have hreads : (∀ x, ¬ m.Executes (.readDelay x)) ↔ ∀ x, ¬ m'.Executes (.readDelay x) :=
        forall_congr' fun x ↦ not_congr ⟨h.executes, h.symm.executes⟩
      rw [← hreads]
      by_cases hblind : ∀ x, ¬ m.Executes (.readDelay x)
      · rw [and_iff_right hblind, and_iff_right hblind]
        obtain ⟨houtcome, hnext⟩ := h.cycle fun _ ↦ reads_timers_eq_false hblind
        by_cases hstop : Pacer.stopsClock m.cycle.outcome
        · -- Both machines are idle from here on, so the rest may have any length.
          obtain ⟨hunread, hmachine⟩ := (idle_of_stopsClock hstop).run hevents
          obtain ⟨hunread', hmachine'⟩ := (idle_of_stopsClock (houtcome ▸ hstop)).run
            fun event hevent ↦ .inr (List.eq_of_mem_replicate hevent)
          exact ⟨iff_of_true hunread hunread', fun _ ↦ hmachine.symm.trans (hnext.trans hmachine')⟩
        · exact ih hnext hevents (Nat.le_of_succ_le_succ hle)
            fun hgoes ↦ Nat.succ.inj (hgoing ⟨hstop, hgoes⟩)
      · exact ⟨iff_of_false (fun hall ↦ hblind hall.1) (fun hall ↦ hblind hall.1),
          fun hall ↦ absurd hall.1 hblind⟩

end Machine

namespace Pacer

variable {p : Pacer}

/-- Updates make ticks and cycles, and nothing else. -/
theorem mem_history_updates {durations : List Nat} {event : Event}
    (h : event ∈ p.history (durations.map .update)) : event = .tick ∨ event = .cycle := by
  induction durations generalizing p with
  | nil => cases h
  | cons duration durations ih =>
    rcases List.mem_append.1 h with hfirst | hlater
    · exact p.mem_events hfirst
    · exact ih hlater

/-- Nothing is done to a machine between updates. -/
theorem machine_notMem_updates (event : Event) (durations : List Nat) :
    Request.machine event ∉ durations.map Request.update := by
  rw [List.mem_map]
  rintro ⟨duration, -, hrequest⟩
  cases hrequest

/-- Updates that are no longer together than one can be keep the time. -/
theorem keepsTime_updates {durations : List Nat}
    (h : Request.total (durations.map .update) ≤ longest) :
    ∀ request ∈ durations.map Request.update, request.KeepsTime := by
  induction durations with
  | nil => exact List.forall_mem_nil _
  | cons duration durations ih =>
    have htotal : duration + Request.total (durations.map .update) ≤ longest := h
    rw [List.map_cons, List.forall_mem_cons]
    exact ⟨Nat.le_of_add_right_le htotal, ih (Nat.le_of_add_left_le htotal)⟩

/-- **A cut compared with the cycles that the whole time has room for.** -/
theorem updates_cycles (h : p.cycleClock < p.period) {durations : List Nat}
    (hlongest : Request.total (durations.map .update) ≤ longest) :
    let due := (p.cycleClock + Request.total (durations.map .update)) / p.period
    (p.machine.DelayUnread (p.history (durations.map .update)) ↔
        p.machine.DelayUnread (List.replicate due .cycle)) ∧
      (p.machine.DelayUnread (p.history (durations.map .update)) →
        Machine.Alike .timers (p.run (durations.map .update)).machine
          (p.machine.run (List.replicate due .cycle))) := by
  obtain ⟨hle, hgoing⟩ :=
    count_cycles h (keepsTime_updates hlongest) (machine_notMem_updates .cycle durations)
  have hstart : Machine.Alike .timers p.machine p.machine := .refl nofun
  rw [machine_run]
  exact hstart.run_cycles (fun _ ↦ mem_history_updates) hle hgoing

/-- **What a program comes to does not depend on how time is cut into updates**, whether it runs, waits
or fails, and whatever an update answers. From any machine, with less than a period on the instruction
clock: if two lists of durations come to the same time and no `FX07` is carried out in the first, they
leave machines that are the same but for the timers. -/
theorem run_updates_slicing (p : Pacer) (hclock : p.cycleClock < p.period) (first second : List Nat)
    (hsame : Request.total (first.map .update) = Request.total (second.map .update))
    (hlongest : Request.total (first.map .update) ≤ longest)
    (hunread : p.machine.DelayUnread (p.history (first.map .update))) :
    ∃ timers, (p.run (second.map .update)).machine =
      { (p.run (first.map .update)).machine with timers } := by
  obtain ⟨hreads, hfirst⟩ := updates_cycles hclock hlongest
  obtain ⟨hreads', hsecond⟩ := updates_cycles hclock (hsame ▸ hlongest)
  rw [← hsame] at hreads' hsecond
  have halike := (hfirst hunread).trans (hsecond (hreads'.2 (hreads.1 hunread))).symm
  refine ⟨(p.run (second.map .update)).machine.timers, ?_⟩
  rw [halike.eq, halike.keypad_eq nofun, halike.generator_eq nofun]

/-- Sixty milliseconds in one piece and in two, for a program that sets the delay timer and waits for a
key. In two pieces the timer is set one tick earlier and one look at the keypad less is made; the rest
is the same. -/
theorem wait_reached_by_two_cuts :
    let m := (Machine.powerOn { Config.usual with cpuHz := 100 } (.ofSeed 0)).run
      [.load [0x60, 0x05, 0xF0, 0x15, 0xF1, 0x0A]]
    let first := [60000000]
    let second := [10000000, 50000000]
    let p := new m
    p.cycleClock < p.period ∧
      Request.total (first.map .update) = Request.total (second.map .update) ∧
      Request.total (first.map .update) ≤ longest ∧
      p.machine.DelayUnread (p.history (first.map .update)) ∧
      (p.run (first.map .update)).machine.keyWait = some 1 ∧
      (p.run (first.map .update)).machine.timers.delay = 4 ∧
      (p.run (second.map .update)).machine.timers.delay = 3 ∧
      (p.history (first.map .update)).count .cycle = 5 ∧
      (p.history (second.map .update)).count .cycle = 4 ∧
      ∃ timers, (p.run (second.map .update)).machine =
        { (p.run (first.map .update)).machine with timers } := by
  intro m first second p
  have hclock : p.cycleClock < p.period := p.period_pos
  have hsame : Request.total (first.map .update) = Request.total (second.map .update) := by decide
  have hlongest : Request.total (first.map .update) ≤ longest := by decide
  have hunread : p.machine.DelayUnread (p.history (first.map .update)) := by decide
  have hmachine := run_updates_slicing p hclock first second hsame hlongest hunread
  exact ⟨hclock, hsame, hlongest, hunread, by decide, by decide, by decide, by decide, by decide,
    hmachine⟩

end Pacer

end ChipEight
