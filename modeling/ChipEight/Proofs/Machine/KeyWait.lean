import ChipEight.Proofs.Machine.Moments

/-!
# Waiting for a key

A machine that waits looks at the latched presses and at nothing else. What it finds there has to be
said of the history: a key is **pressed** at a moment when it goes down and was not held, and while a
machine waits and does not look, the keys latched are exactly those latched before or pressed since
(`has_latched_run`). The wait begins with no key latched, so what was pressed before it does not
count; and a key that was held already has to be released before it can be pressed (`not_pressed`).

So as long as no key is pressed, every look finds nothing and changes nothing, and the first look
after a press takes the smallest key pressed, held or released by then.

**Main statement**: `Executes.waits_for_press`.
-/

namespace ChipEight

/-- A key goes down that was not held. -/
def Moment.Presses (t : Moment) (k : Digit) : Prop :=
  t.event = .key k true ∧ t.machine.keypad.isHeld k = false

instance (t : Moment) (k : Digit) : Decidable (t.Presses k) :=
  inferInstanceAs (Decidable (t.event = .key k true ∧ t.machine.keypad.isHeld k = false))

namespace Machine

variable {m : Machine} {x k : Digit} {pc : UInt16}

/-- A key is pressed in the course of a history. -/
def Pressed (m : Machine) (events : List Event) (k : Digit) : Prop :=
  ∃ t ∈ m.moments events, t.Presses k

instance (m : Machine) (events : List Event) (k : Digit) : Decidable (m.Pressed events k) :=
  inferInstanceAs (Decidable (∃ t ∈ m.moments events, t.Presses k))

theorem pressed_cons {event : Event} {events : List Event} :
    m.Pressed (event :: events) k ↔
      Moment.Presses ⟨m, event⟩ k ∨ (m.apply event).Pressed events k := by
  simp only [Pressed, moments_cons, List.mem_cons, or_and_right, exists_or, exists_eq_left]

/-! ### What is latched -/

/-- An event that is neither a cycle nor a restart latches the keys it presses. -/
theorem has_latched_apply {event : Event} (h : ¬ event.restarts) (hcycle : event ≠ .cycle) :
    (m.apply event).keypad.latched.has k = true ↔
      m.keypad.latched.has k = true ∨ Moment.Presses ⟨m, event⟩ k := by
  cases event with
  | load program =>
    have hpress : ¬ Moment.Presses ⟨m, .load program⟩ k := fun hpress ↦ nomatch hpress.1
    rw [apply_load_of_not_restarts h, or_iff_left hpress]
  | reset => exact absurd rfl h
  | cycle => exact absurd rfl hcycle
  | tick =>
    have hpress : ¬ Moment.Presses ⟨m, .tick⟩ k := fun hpress ↦ nomatch hpress.1
    rw [or_iff_left hpress]
    rfl
  | key j down =>
    show (m.keypad.set j down).latched.has k = true ↔ _
    rw [Keypad.has_latched_set, Moment.Presses]
    simp only [Bool.or_eq_true, Bool.and_eq_true, decide_eq_true_eq, Bool.not_eq_true',
      Event.key.injEq]
    -- The two sides name the key in the two orders, and say the same of it.
    constructor <;>
    · rintro (hlatched | ⟨⟨rfl, hdown⟩, hheld⟩)
      · exact .inl hlatched
      · exact .inr ⟨⟨rfl, hdown⟩, hheld⟩

/-- **Without a cycle or a restart the keys latched are those latched before and those pressed
since.** -/
theorem has_latched_run {events : List Event}
    (h : ∀ event ∈ events, ¬ event.restarts ∧ event ≠ .cycle) :
    (m.run events).keypad.latched.has k = true ↔
      m.keypad.latched.has k = true ∨ m.Pressed events k := by
  induction events generalizing m with
  | nil =>
    have hpressed : ¬ m.Pressed [] k := nofun
    rw [or_iff_left hpressed, run_nil]
  | cons event events ih =>
    rw [List.forall_mem_cons] at h
    rw [run_cons, ih h.2, has_latched_apply h.1.1 h.1.2, pressed_cons, or_assoc]

/-! ### What is held -/

/-- No cycle presses or releases a key. -/
theorem held_cycle (m : Machine) : m.cycle.machine.keypad.held = m.keypad.held := by
  cases m.beat with
  | halted _ result => rw [result]
  | unfetched _ _ _ result | unread _ _ _ _ result | refused _ _ result =>
    rw [result]
    rfl
  | @polled x _ _ result =>
    obtain ⟨_, _, _, hpoll⟩ := m.pollKey_frame x
    rw [result, hpoll]
  | done _ done result =>
    rw [result]
    cases effect_of_execute done <;> rfl

/-- A key stays held until it is released or the machine restarted. -/
theorem isHeld_after {t : Moment} (h : ¬ t.event.restarts) (hrelease : t.event ≠ .key k false)
    (held : t.machine.keypad.isHeld k = true) : t.after.keypad.isHeld k = true := by
  obtain ⟨m, event⟩ := t
  cases event with
  | load program => rwa [Moment.after, apply_load_of_not_restarts h]
  | reset => exact absurd rfl h
  | cycle =>
    show m.cycle.machine.keypad.held.has k = true
    rwa [held_cycle]
  | tick => exact held
  | key j down =>
    show (m.keypad.set j down).isHeld k = true
    rw [Keypad.isHeld_set]
    split
    · rename_i hkey
      subst hkey
      cases down with
      | false => exact absurd rfl hrelease
      | true => rfl
    · exact held

/-- **A key that is held is not pressed before it is released**, however often it is reported down. -/
theorem not_pressed (held : m.keypad.isHeld k = true) {events : List Event}
    (h : ∀ event ∈ events, ¬ event.restarts) (hrelease : .key k false ∉ events) :
    ¬ m.Pressed events k := by
  rintro ⟨t, ht, -, hreleased⟩
  have hheld : ∀ t ∈ m.moments events, t.machine.keypad.isHeld k = true :=
    machine_of_mem_moments (P := fun m ↦ m.keypad.isHeld k = true)
      (Q := fun t ↦ ¬ t.event.restarts ∧ t.event ≠ .key k false)
      (fun _ hQ hheld ↦ isHeld_after hQ.1 hQ.2 hheld) held fun t ht ↦
        have hmem := event_mem_of_mem_moments ht
        ⟨h _ hmem, fun hevent ↦ hrelease (hevent ▸ hmem)⟩
  rw [hheld t ht] at hreleased
  cases hreleased

/-! ### The wait -/

/-- A machine that waits at a place for a key, to put it into a register. -/
structure Waits (x : Digit) (pc : UInt16) (m : Machine) : Prop where
  running : m.fault = none
  waiting : m.keyWait = some x
  pc_eq : m.pc = pc

/-- Only a cycle or a restart can end a wait. -/
theorem Waits.apply (h : Waits x pc m) {event : Event} (hrestart : ¬ event.restarts)
    (hcycle : event ≠ .cycle) : Waits x pc (m.apply event) := by
  cases event with
  | load program => rwa [apply_load_of_not_restarts hrestart]
  | reset => exact absurd rfl hrestart
  | cycle => exact absurd rfl hcycle
  | tick | key => exact ⟨h.running, h.waiting, h.pc_eq⟩

/-- A look that finds no key changes nothing. -/
theorem Waits.cycle_of_unlatched (h : Waits x pc m)
    (unlatched : ∀ k, m.keypad.latched.has k = false) : m.cycle = ⟨.ok .waitingForKey, [], m⟩ := by
  have hleast := (KeySet.least?_eq_none_iff _).2 unlatched
  rw [cycle_of_keyWait h.running h.waiting, pollKey, Keypad.takePress, hleast]
  rfl

/-- A look that finds keys takes the smallest one and ends the wait. -/
theorem Waits.cycle_of_latched (h : Waits x pc m) (latched : m.keypad.latched.has k = true)
    (least : ∀ j < k, m.keypad.latched.has j = false) :
    m.cycle = ⟨.ok .proceed, [],
      { m with
        registers := m.registers.set x k.toByte
        keypad.latched := m.keypad.latched.erase k
        keyWait := none }⟩ := by
  have hleast := (KeySet.least?_eq_some_iff _).2 ⟨latched, least⟩
  rw [cycle_of_keyWait h.running h.waiting, pollKey, Keypad.takePress, hleast]
  rfl

/-- **As long as no key is pressed, a wait goes on** and no key is latched. -/
theorem Waits.run_of_not_pressed (h : Waits x pc m)
    (unlatched : ∀ k, m.keypad.latched.has k = false) {events : List Event}
    (hrestart : ∀ event ∈ events, ¬ event.restarts) (hpressed : ∀ k, ¬ m.Pressed events k) :
    Waits x pc (m.run events) ∧ ∀ k, (m.run events).keypad.latched.has k = false := by
  refine run_of_moments (P := fun m ↦ Waits x pc m ∧ ∀ k, m.keypad.latched.has k = false)
    (Q := fun t ↦ ¬ t.event.restarts ∧ ∀ k, ¬ t.Presses k) ?_ ⟨h, unlatched⟩ events
    fun t ht ↦ ⟨hrestart _ (event_mem_of_mem_moments ht), fun k hk ↦ hpressed k ⟨t, ht, hk⟩⟩
  rintro ⟨m, event⟩ ⟨hrestart, hpress⟩ ⟨hwaits, hnone⟩
  by_cases hcycle : event = .cycle
  · -- A look that finds nothing leaves the machine as it is.
    subst hcycle
    show Waits x pc m.cycle.machine ∧ ∀ k, m.cycle.machine.keypad.latched.has k = false
    rw [hwaits.cycle_of_unlatched hnone]
    exact ⟨hwaits, hnone⟩
  · refine ⟨hwaits.apply hrestart hcycle, fun k ↦ Bool.eq_false_iff.2 fun hlatched ↦ ?_⟩
    rcases (has_latched_apply hrestart hcycle).1 hlatched with hbefore | hnow
    · rw [hnone k] at hbefore
      cases hbefore
    · exact hpress k hnow

/-- **The first look after a press takes the smallest key pressed**, whichever keys are held by then. -/
theorem Waits.run_of_pressed (h : Waits x pc m)
    (unlatched : ∀ k, m.keypad.latched.has k = false) {events : List Event}
    (hstill : ∀ event ∈ events, ¬ event.restarts ∧ event ≠ .cycle)
    (hpressed : ∃ k, m.Pressed events k) :
    let p := m.run events
    ∃ k, m.Pressed events k ∧ (∀ j < k, ¬ m.Pressed events j) ∧
      p.cycle = ⟨.ok .proceed, [],
        { p with
          registers := p.registers.set x k.toByte
          keypad.latched := p.keypad.latched.erase k
          keyWait := none }⟩ := by
  intro p
  have hwaits : Waits x pc p :=
    run_of_events (P := Waits x pc) (fun _ _ hevent hwaits ↦ hwaits.apply hevent.1 hevent.2) h hstill
  have hlatched : ∀ k, p.keypad.latched.has k = true ↔ m.Pressed events k := fun k ↦ by
    rw [has_latched_run hstill, unlatched k]
    exact or_iff_right Bool.false_ne_true
  rcases hleast : p.keypad.latched.least? with - | k
  · obtain ⟨k, hk⟩ := hpressed
    have hempty := (KeySet.least?_eq_none_iff _).1 hleast k
    rw [(hlatched k).2 hk] at hempty
    cases hempty
  · obtain ⟨hk, hbelow⟩ := (KeySet.least?_eq_some_iff _).1 hleast
    refine ⟨k, (hlatched k).1 hk, fun j hj hpressed ↦ ?_, hwaits.cycle_of_latched hk hbelow⟩
    have hj := hbelow j hj
    rw [(hlatched j).2 hpressed] at hj
    cases hj

/-- **Waiting for a key.** From an `FX0A` on, and as long as the machine is not restarted: while no key
is pressed, every cycle waits, fetches nothing and changes nothing. After a stretch with presses and
without a cycle, the next cycle goes on: it puts the smallest key pressed into the register and ends
the wait, and changes nothing else but that this key is latched no more. A key held at the `FX0A` is
not pressed until it has been released. -/
theorem Executes.waits_for_press (h : m.Executes (.awaitKey x)) :
    let w := m.cycle.machine
    m.cycle.outcome = .ok .waitingForKey ∧
      (∀ idle : List Event, (∀ event ∈ idle, ¬ event.restarts) → (∀ k, ¬ w.Pressed idle k) →
        let i := w.run idle
        (i.cycle = ⟨.ok .waitingForKey, [], i⟩ ∧ i.pc.toNat = m.pc.toNat + 2 ∧ i.keyWait = some x) ∧
          ∀ pressing : List Event, (∀ event ∈ pressing, ¬ event.restarts ∧ event ≠ .cycle) →
            (∃ k, i.Pressed pressing k) →
              let p := i.run pressing
              ∃ k, i.Pressed pressing k ∧ (∀ j < k, ¬ i.Pressed pressing j) ∧
                p.cycle = ⟨.ok .proceed, [],
                  { p with
                    registers := p.registers.set x k.toByte
                    keypad.latched := p.keypad.latched.erase k
                    keyWait := none }⟩) ∧
      ∀ later : List Event, (∀ event ∈ later, ¬ event.restarts) → ∀ k, m.keypad.isHeld k →
        .key k false ∉ later → ¬ w.Pressed later k := by
  intro w
  have hcycle : m.cycle = ⟨.ok .waitingForKey, [.fetched m.pc m.current (some (.awaitKey x))],
      m.stepOver.awaitKey x⟩ := h.cycle_of_execute rfl
  have hw : w = m.stepOver.awaitKey x := congrArg Cycle.machine hcycle
  have hwaits : Waits x (m.pc + 2) w := hw ▸ ⟨h.running, rfl, rfl⟩
  have hunlatched : ∀ k, w.keypad.latched.has k = false := fun k ↦ hw ▸ KeySet.has_empty k
  refine ⟨congrArg Cycle.outcome hcycle, fun idle hidle hquiet ↦ ?_, fun later hlater k held ↦ ?_⟩
  · obtain ⟨hidles, hnone⟩ := hwaits.run_of_not_pressed hunlatched hidle hquiet
    refine ⟨⟨hidles.cycle_of_unlatched hnone, ?_, hidles.waiting⟩,
      fun pressing hpressing hpressed ↦ hidles.run_of_pressed hnone hpressing hpressed⟩
    rw [hidles.pc_eq, h.toNat_pc_add_two]
  · have hheld : w.keypad.isHeld k = true := hw ▸ held
    exact not_pressed hheld hlater

/-- A machine begins to wait with key 4 held and key 9 latched. Neither ends the wait, nor does key 4
reported down once more; then keys 12 and 5 are pressed, 12 is released, and the next cycle takes 5. -/
theorem key_5_ends_wait :
    let m := (powerOn .usual (.ofSeed 0)).run
      [.load [0xF2, 0x0A], .key 4 true, .key 9 true, .key 9 false]
    let idle : List Event := [.cycle, .key 4 true, .cycle, .tick]
    let pressing : List Event := [.key 12 true, .key 12 false, .tick, .key 5 true]
    let i := m.cycle.machine.run idle
    let p := i.run pressing
    m.Executes (.awaitKey 2) ∧ m.keypad.isHeld 4 ∧ m.keypad.latched.has 9 ∧
      i.cycle = ⟨.ok .waitingForKey, [], i⟩ ∧ ¬ m.cycle.machine.Pressed (idle ++ pressing) 4 ∧
        p.cycle.machine.registers.get 2 = 5 ∧ ∃ k, i.Pressed pressing k ∧
          (∀ j < k, ¬ i.Pressed pressing j) ∧ p.cycle = ⟨.ok .proceed, [],
            { p with
              registers := p.registers.set 2 k.toByte
              keypad.latched := p.keypad.latched.erase k
              keyWait := none }⟩ := by
  intro m idle pressing i p
  have h : m.Executes (.awaitKey 2) := by decide
  obtain ⟨-, hwait, hheld⟩ := h.waits_for_press
  obtain ⟨⟨hidle, -, -⟩, hnext⟩ := hwait idle (by decide) (by decide)
  exact ⟨h, by decide, by decide, hidle, hheld _ (by decide) 4 (by decide) (by decide), by decide,
    hnext pressing (by decide) ⟨5, by decide⟩⟩

end Machine

end ChipEight
