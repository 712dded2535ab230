import ChipEight.Proofs.Machine.Footprint

/-!
# What the timers show

A timer shows what it was last set to, less the ticks since then, and never less than nothing. Two
things only move it: the instruction that sets it (`FX15` the delay timer, `FX18` the sound timer) and
the ticks. Cycles of any other kind leave it alone, whether they carry an instruction out, fail, look
for a key or are refused; so it makes no difference how many of them come between two ticks.

Both timers obey one law, stated for either of them (`Timer`). It follows a history to its end, one
moment at a time: a write starts the count of ticks afresh, a tick adds one to it, and nothing else
changes either side (`shown_after`).

**Main statement**: `run_timers`.
-/

namespace ChipEight

/-- One of the two timers. -/
inductive Timer where
  | delay
  | sound
  deriving DecidableEq

namespace Timer

/-- What a timer shows. -/
def shown : Timer → Timers → UInt8
  | delay, timers => timers.delay
  | sound, timers => timers.sound

/-- The register that an instruction sets a timer from, if it sets it. -/
def setFrom? : Timer → Opcode → Option Digit
  | delay, .setDelay x | sound, .setSound x => some x
  | _, _ => none

theorem shown_tick (timer : Timer) (timers : Timers) :
    (timer.shown timers.tick).toNat = (timer.shown timers).toNat - 1 := by
  cases timer <;> exact Timers.toNat_countDown _

end Timer

/-- What is written to a timer at a moment, if an instruction that sets it is carried out. -/
def Moment.written? (timer : Timer) (t : Moment) : Option UInt8 :=
  t.carried?.bind fun op ↦ (timer.setFrom? op).map t.machine.registers.get

namespace Machine

variable {timer : Timer} {m : Machine} {op : Opcode}

/-- The byte last written to a timer in a history, or what the timer shows at the start if none was. -/
def setting (timer : Timer) (m : Machine) (events : List Event) : UInt8 :=
  ((m.moments events).reverse.findSome? (Moment.written? timer)).getD (timer.shown m.timers)

/-- The ticks since a timer was last written in a history, or all of them if it was not. -/
def elapsed (timer : Timer) (m : Machine) (events : List Event) : Nat :=
  (since (fun t ↦ (t.written? timer).isSome) (m.moments events)).countP fun t ↦ t.event = .tick

/-! ### What one moment does to a timer -/

/-- An instruction sets a timer from a register, or leaves it alone. -/
theorem shown_timersAfter (timer : Timer) (m : Machine) (op : Opcode) :
    timer.shown (m.timersAfter op) =
      ((timer.setFrom? op).map m.registers.get).getD (timer.shown m.timers) := by
  cases timer <;> cases op <;> rfl

end Machine

namespace Moment

variable {timer : Timer} {t : Moment} {value : UInt8}

/-- What is written to a timer is what it shows afterwards. -/
theorem shown_after_of_written (h : t.written? timer = some value) :
    timer.shown t.after.timers = value := by
  obtain ⟨op, hop, hwrite⟩ := Option.bind_eq_some_iff.1 h
  obtain ⟨-, htimers, -⟩ := outputs_of_carried hop
  rw [htimers, Machine.shown_timersAfter, hwrite]
  rfl

/-- Where nothing is written to a timer and nothing starts again, a tick alone moves it. -/
theorem shown_after_of_not_written (h : t.written? timer = none) (hrestart : ¬ t.event.restarts) :
    timer.shown t.after.timers =
      timer.shown (if t.event = .tick then t.machine.timers.tick else t.machine.timers) := by
  rcases hcarried : t.carried? with - | op
  · obtain ⟨_, _, _, _, _, hafter⟩ := after_of_not_carried hcarried hrestart
    rw [hafter]
  · have hcycle : t.event = .cycle := (carried?_eq_some_iff.1 hcarried).1.1
    have hwrite : (timer.setFrom? op).map t.machine.registers.get = none := by
      rw [written?, hcarried] at h
      exact h
    obtain ⟨-, htimers, -⟩ := outputs_of_carried hcarried
    rw [htimers, Machine.shown_timersAfter, hwrite, if_neg (by rw [hcycle]; exact nofun)]
    rfl

end Moment

namespace Machine

variable {timer : Timer} {m : Machine}

/-! ### What a history does to it -/

/-- A write at the end of a history is the last one. -/
theorem setting_concat (timer : Timer) (m : Machine) (events : List Event) (event : Event) :
    setting timer m (events ++ [event]) =
      (Moment.written? timer ⟨m.run events, event⟩).getD (setting timer m events) := by
  rw [setting, moments_append, moments_cons, moments_nil, List.reverse_concat, List.findSome?_cons]
  cases Moment.written? timer ⟨m.run events, event⟩ <;> rfl

/-- A write at the end of a history starts the count of ticks afresh, and a tick adds to it. -/
theorem elapsed_concat (timer : Timer) (m : Machine) (events : List Event) (event : Event) :
    elapsed timer m (events ++ [event]) =
      if (Moment.written? timer ⟨m.run events, event⟩).isSome then 0
      else elapsed timer m events + if event = .tick then 1 else 0 := by
  rw [elapsed, moments_append, moments_cons, moments_nil, since_concat]
  split
  · rfl
  · rw [List.countP_append, List.countP_singleton]
    simp only [decide_eq_true_eq]
    rfl

/-- **A timer shows what it was last set to, less the ticks since.** -/
theorem shown_run (timer : Timer) (m : Machine) {events : List Event}
    (h : ∀ event ∈ events, ¬ event.restarts) :
    (timer.shown (m.run events).timers).toNat =
      (setting timer m events).toNat - elapsed timer m events := by
  induction events using List.reverseRecOn with
  | nil => rfl
  | append_singleton events event ih =>
    rw [List.forall_mem_append] at h
    have hrestart : ¬ event.restarts := h.2 event List.mem_cons_self
    have hrun : m.run (events ++ [event]) = Moment.after ⟨m.run events, event⟩ := run_append m _ _
    rw [hrun, setting_concat, elapsed_concat]
    rcases hwrite : Moment.written? timer ⟨m.run events, event⟩ with - | value
    · rw [Moment.shown_after_of_not_written hwrite hrestart, Option.getD_none, Option.isSome_none,
        if_neg Bool.false_ne_true]
      by_cases htick : event = .tick
      · rw [if_pos htick, if_pos htick, Timer.shown_tick, ih h.1, Nat.sub_sub]
      · rw [if_neg htick, if_neg htick, ih h.1, Nat.add_zero]
    · rw [Moment.shown_after_of_written hwrite]
      rfl

/-- **The timers of a history.** From any machine and for any history that does not restart it: each
timer shows the byte last written to it less the ticks since, and at least zero, where a timer that
nothing was written to counts from what it showed at the start; the buzzer sounds exactly if fewer
ticks have come since the sound timer was set than it was set to; and a cycle that does not carry
out an instruction that sets a timer leaves that timer alone. -/
theorem run_timers (m : Machine) (events : List Event) (h : ∀ event ∈ events, ¬ event.restarts) :
    (∀ timer : Timer, (timer.shown (m.run events).timers).toNat =
      (setting timer m events).toNat - elapsed timer m events) ∧
      ((m.run events).timers.soundActive = true ↔
        elapsed .sound m events < (setting .sound m events).toNat) ∧
      ∀ timer : Timer, ∀ t ∈ m.moments events, t.event = .cycle →
        (∀ op, t.Executes op → timer.setFrom? op = none) →
          timer.shown t.after.timers = timer.shown t.machine.timers := by
  refine ⟨fun timer ↦ shown_run timer m h, ?_, fun timer t ht hcycle hother ↦ ?_⟩
  · have hsound := shown_run .sound m h
    rw [Timers.soundActive, decide_eq_true_iff, UInt8.lt_iff_toNat_lt]
    show 0 < (Timer.sound.shown (m.run events).timers).toNat ↔ _
    rw [hsound, Nat.sub_pos_iff_lt]
  · have hwrite : t.written? timer = none := by
      refine Option.bind_eq_none_iff.2 fun op hop ↦ ?_
      rw [hother op (Moment.carried?_eq_some_iff.1 hop).1]
      rfl
    have hrestart : ¬ t.event.restarts := h _ (event_mem_of_mem_moments ht)
    rw [Moment.shown_after_of_not_written hwrite hrestart, if_neg (by rw [hcycle]; exact nofun)]

/-- A program sets the delay timer to 5 and, a tick later, the sound timer to 2; then it waits for a key.
After two more ticks, one of them in the wait, the delay timer shows 2 and the buzzer is silent, and
the look at the keypad at the end has moved neither. -/
theorem timers_through_wait :
    let m := (powerOn .usual (.ofSeed 0)).run
      [.load [0x60, 0x05, 0xF0, 0x15, 0x61, 0x02, 0xF1, 0x18, 0xF2, 0x0A], .cycle]
    let earlier : List Event := [.cycle, .tick, .cycle, .cycle, .tick, .cycle, .tick]
    let events : List Event := earlier ++ [.cycle]
    let n := m.run events
    (∀ event ∈ events, ¬ event.restarts) ∧ setting .delay m events = 5 ∧
      elapsed .delay m events = 3 ∧ n.timers.delay.toNat = 5 - 3 ∧
        setting .sound m events = 2 ∧ elapsed .sound m events = 2 ∧ ¬ n.timers.soundActive ∧
          (m.run earlier).keyWait = some 2 ∧ n.timers.delay = (m.run earlier).timers.delay := by
  intro m earlier events n
  have hstill : ∀ event ∈ events, ¬ event.restarts := by decide
  have hdelay : setting .delay m events = 5 ∧ elapsed .delay m events = 3 := by decide
  have hsound : setting .sound m events = 2 ∧ elapsed .sound m events = 2 := by decide
  have hwait : (m.run earlier).keyWait = some 2 := by decide
  obtain ⟨hshown, hactive, hother⟩ := run_timers m events hstill
  have hpoll : ⟨m.run earlier, .cycle⟩ ∈ m.moments events := moment_mem_moments m earlier .cycle []
  have hdelay_shown := hshown .delay
  rw [hdelay.1, hdelay.2] at hdelay_shown
  rw [hsound.1, hsound.2] at hactive
  have hkept := hother .delay _ hpoll rfl fun op hop ↦ absurd (hwait.symm.trans hop.2.awake) nofun
  have hn : n = Moment.after ⟨m.run earlier, .cycle⟩ := run_append m _ _
  exact ⟨hstill, hdelay.1, hdelay.2, hdelay_shown, hsound.1, hsound.2,
    fun h ↦ absurd (hactive.1 h) (by decide), hwait, hn ▸ hkept⟩

end Machine

end ChipEight
