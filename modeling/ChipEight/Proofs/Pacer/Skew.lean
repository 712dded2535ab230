import ChipEight.Proofs.Pacer.Budget
import ChipEight.Proofs.Pacer.Ticks

/-!
# The two clocks side by side

Neither clock looks at the other, yet both are fed the same slices. When a cycle is made, the timers
have ticked for all the time up to the end of its slice, and the cycle is due somewhere within that
slice: the clock held less than a period before it. So the moment that the timers are at is at least the
one at which the cycle is due, and less than a slice after it (`Timely`). That a slice is no longer than
a timer period is all that keeps the two together, and it keeps them within one tick.

Where an update begins or ends makes no difference to this, as it can only make a slice shorter.

**Main statement**: `history_new_skew`.
-/

namespace ChipEight

namespace Pacer

/-- The cycle that follows a history is in time: at some moment it is due, and has been due for less
than a timer period, and the ticks in the history are those that are due by that moment. -/
def Timely (p : Pacer) (history : List Event) : Prop :=
  ∃ now, (p.tickClock + now) / tickPeriod = history.count .tick ∧
    p.period * (history.count .cycle + 1) ≤ p.cycleClock + now ∧
    p.cycleClock + now < p.period * (history.count .cycle + 1) + tickPeriod

/-- Every cycle of a history is in time, up to the first that stops the clock and with it. -/
def AllTimely (p : Pacer) (history : List Event) : Prop :=
  ∀ before, before ++ [.cycle] <+: history → p.machine.Unstopped before → p.Timely before

variable {p : Pacer} {history : List Event}

theorem AllTimely.nil : p.AllTimely [] := fun before hprefix ↦
  absurd (List.prefix_nil.1 hprefix) (List.append_ne_nil_of_right_ne_nil before (List.cons_ne_nil _ _))

theorem AllTimely.tick (h : p.AllTimely history) : p.AllTimely (history ++ [.tick]) := by
  intro before hprefix hgoing
  rcases List.prefix_concat_iff.1 hprefix with hlast | hearlier
  · exact absurd (List.append_inj' hlast rfl).2 (by decide)
  · exact h before hearlier hgoing

theorem AllTimely.cycle (h : p.AllTimely history)
    (hlast : p.machine.Unstopped history → p.Timely history) :
    p.AllTimely (history ++ [.cycle]) := by
  intro before hprefix hgoing
  rcases List.prefix_concat_iff.1 hprefix with hsame | hearlier
  · obtain rfl := List.append_cancel_right hsame
    exact hlast hgoing
  · exact h before hearlier hgoing

end Pacer

namespace Progress

variable {p : Pacer} {elapsed d : Nat} {s t : Progress (List Event)}

/-- Both clocks keep their books, and every cycle so far is in time. -/
structure Timed (p : Pacer) (elapsed : Nat) (s : Progress (List Event)) : Prop where
  ticked : Ticked p elapsed s
  spent : Spent p elapsed s
  timely : p.AllTimely s.seen

theorem allTimely_passTicks (h : p.AllTimely s.seen) (d : Nat) :
    p.AllTimely (s.passTicks record d).seen := by
  rcases s.passTicks_cases record d with ⟨-, hs⟩ | ⟨-, hs⟩
  · rw [hs]
    exact h.tick
  · rw [hs]
    exact h

/-- A cycle that is due, and has been for less than a timer period, is in time. -/
theorem Timed.makeCycle (h : Timed p elapsed s) (hdue : p.period ≤ s.pacer.cycleClock)
    (hlt : s.pacer.cycleClock < p.period + Pacer.tickPeriod) :
    Timed p elapsed (s.makeCycle record p.period) := by
  refine ⟨h.ticked.makeCycle _, h.spent.makeCycle hdue, ?_⟩
  rw [makeCycle_eq]
  refine h.timely.cycle fun hgoing ↦ ⟨elapsed, ?_, ?_⟩
  · exact ((Nat.div_mod_unique Pacer.tickPeriod_pos).2 ⟨h.ticked.balance, h.ticked.tickClock_lt⟩).1
  · have hbalance := h.spent.balance hgoing
    rw [Nat.mul_succ]
    omega

theorem Timed.drains (h : Timed p elapsed s) (hlt : s.pacer.cycleClock < p.period + Pacer.tickPeriod)
    (cycles : Drains record p.period s t) : Timed p elapsed t := by
  refine (cycles.preserves
    (P := fun s ↦ Timed p elapsed s ∧ s.pacer.cycleClock < p.period + Pacer.tickPeriod)
    (fun s hdue hs ↦ ⟨hs.1.makeCycle hdue hs.2, ?_⟩) ⟨h, hlt⟩).1
  calc (s.makeCycle record p.period).pacer.cycleClock
      ≤ s.pacer.cycleClock - p.period := cycleClock_makeCycle_le record p.period s
    _ ≤ s.pacer.cycleClock := Nat.sub_le _ _
    _ < p.period + Pacer.tickPeriod := hs.2

/-- **The cycles of a slice are in time**: before it the clock holds less than a period, and the slice
puts at most a timer period on it. -/
theorem Timed.slice (h : Timed p elapsed s) (hlt : s.pacer.cycleClock < p.period)
    (hd : d ≤ Pacer.tickPeriod) (hslice : Slice record d s t) :
    Timed p (elapsed + d) t ∧ t.pacer.cycleClock < p.period := by
  obtain ⟨hspent, hlt'⟩ := h.spent.slice hlt hslice
  have hticks := h.ticked.passTicks hd
  have htimely := allTimely_passTicks h.timely d
  cases hslice with
  | stopped => exact ⟨⟨hticks, hspent, htimely⟩, hlt'⟩
  | running _ cycles =>
    have hspent' := h.spent.passTicks d
    rw [hspent'.follows.period_eq] at cycles
    have hpaid : (s.passTicks record d).pacer.cycleClock + d < p.period + Pacer.tickPeriod := by
      rw [cycleClock_passTicks]
      omega
    have hbegun : Timed p (elapsed + d)
        { s.passTicks record d with
          pacer.cycleClock := (s.passTicks record d).pacer.cycleClock + d } :=
      ⟨⟨hticks.balance, hticks.tickClock_lt⟩, hspent'.addTime d, htimely⟩
    exact ⟨hbegun.drains hpaid cycles, hlt'⟩

end Progress

namespace Pacer

variable {p q : Pacer} {elapsed : Nat} {seen : List Event}

/-- **An update goes on where the last one stopped.** -/
theorem timed_advance (h : Progress.Timed p elapsed ⟨q, none, seen⟩) (hlt : q.cycleClock < p.period)
    (duration : Nat) :
    Progress.Timed p (elapsed + min duration longest)
        ⟨(q.advance duration).pacer, none, seen ++ q.events duration⟩ ∧
      (q.advance duration).pacer.cycleClock < p.period := by
  obtain ⟨⟨hticked, hspent, htimely⟩, hlt'⟩ := (q.elapses_events seen duration).preserves
    (P := fun elapsed s ↦ Progress.Timed p elapsed s ∧ s.pacer.cycleClock < p.period)
    (fun _ _ _ _ hd hslice h ↦ h.1.slice h.2 hd hslice) elapsed ⟨h, hlt⟩
  exact ⟨⟨⟨hticked.balance, hticked.tickClock_lt⟩,
    ⟨hspent.follows, hspent.within, hspent.balance, fun hfault ↦ absurd rfl hfault⟩, htimely⟩, hlt'⟩

/-- **So the cycles of all updates are in time.** -/
theorem allTimely_updates (h : Progress.Timed p elapsed ⟨q, none, seen⟩)
    (hlt : q.cycleClock < p.period) (durations : List Nat) :
    p.AllTimely (seen ++ q.history (durations.map .update)) := by
  induction durations generalizing q elapsed seen with
  | nil =>
    rw [List.map_nil, history, List.append_nil]
    exact h.timely
  | cons duration durations ih =>
    obtain ⟨hnext, hlt'⟩ := timed_advance h hlt duration
    rw [List.map_cons, history, ← List.append_assoc]
    exact ih hnext hlt'

/-- **An instruction never sees the timers behind the time at which it is due, nor more than one tick
ahead of it**, however coarse or uneven the updates are. With both clocks at zero the `k`-th cycle is due
after `k` periods, and it is made after as many ticks as there are timer periods in that, or one more,
as long as no cycle before it has stopped the clock. -/
theorem history_new_skew (m : Machine) (durations : List Nat) (before after : List Event)
    (hhistory : (new m).history (durations.map .update) = before ++ .cycle :: after)
    (hgoing : m.Unstopped before) :
    let c := max 1 (1000000000 / max 1 m.config.cpuHz.toNat)
    let k := before.count .cycle + 1
    let n := before.count .tick
    k * c / tickPeriod ≤ n ∧ n ≤ k * c / tickPeriod + 1 := by
  intro c k n
  have hstart : Progress.Timed (new m) 0 ⟨new m, none, []⟩ :=
    ⟨⟨rfl, tickPeriod_pos⟩, ⟨rfl, Nat.le_refl 0, fun _ ↦ rfl, fun hfault ↦ absurd rfl hfault⟩, .nil⟩
  have hprefix : before ++ [.cycle] <+: (new m).history (durations.map .update) :=
    ⟨after, by rw [hhistory, List.append_assoc, List.singleton_append]⟩
  obtain ⟨now, hn, hdue, hsoon⟩ :=
    allTimely_updates hstart (new m).period_pos durations before hprefix hgoing
  have hk : (new m).period * (before.count .cycle + 1) = k * c := Nat.mul_comm c k
  have hzero : (new m).cycleClock + now = now := Nat.zero_add now
  rw [hk, hzero] at hdue hsoon
  rw [show (new m).tickClock + now = now from Nat.zero_add now] at hn
  constructor
  · have hbehind := Nat.div_le_div_right (c := tickPeriod) hdue
    rwa [hn] at hbehind
  · have hahead := Nat.div_le_div_right (c := tickPeriod) (Nat.le_of_lt hsoon)
    rwa [Nat.add_div_right _ tickPeriod_pos, hn] at hahead

/-- Both bounds are reached: of the cycles of a machine that jumps on the spot, the first is made one
tick ahead, and the fourth on time. -/
theorem first_and_fourth_cycle :
    let m := (Machine.powerOn { Config.usual with cpuHz := 100 } (.ofSeed 0)).run
      [.load [0x12, 0x00]]
    let history : List Event := [.tick, .cycle, .cycle, .cycle, .tick, .cycle]
    (new m).history ([30000000, 5, 10000000].map .update) = history ∧
      m.Unstopped (history.take 1) ∧ m.Unstopped (history.take 5) ∧
      1 * 10000000 / tickPeriod = 0 ∧ (history.take 1).count .tick ≤ 0 + 1 ∧
      4 * 10000000 / tickPeriod = 2 ∧ 2 ≤ (history.take 5).count .tick := by
  intro m history
  have hhistory : (new m).history ([30000000, 5, 10000000].map .update) = history := by decide
  have hgoing : m.Unstopped (history.take 1) := by decide
  have hgoing' : m.Unstopped (history.take 5) := by decide
  obtain ⟨-, hfirst⟩ := history_new_skew m _ (history.take 1) (history.drop 2) hhistory hgoing
  obtain ⟨hfourth, -⟩ := history_new_skew m _ (history.take 5) (history.drop 6) hhistory hgoing'
  exact ⟨hhistory, hgoing, hgoing', by decide, Nat.le_trans hfirst (by decide), by decide,
    Nat.le_trans (by decide) hfourth⟩

end Pacer

end ChipEight
