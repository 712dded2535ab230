import ChipEight.Proofs.Machine.TrapFree
import ChipEight.Proofs.Pacer.Reports
import ChipEight.Proofs.Pacer.Seconds

/-!
# The width of the counters

Time is kept in numbers of sixty-four bits and a summary counts in thirty-two. Here an update is made
with numbers that have a width (`Counting.update`): an operation that leaves it is a trap, and so is a
sum that would have to be cut off at the largest number.

The clocks never come near their limit, as a period of either is no longer than a second and a slice no
longer than a timer period; and nothing is taken away that is not there. So the update traps exactly if a
counter has no room for what it is to count, and otherwise is the one that counts without a limit
(`Counting.update_eq`).

The ticks of a day have room in thirty-two bits. The instructions of a day have room at every rate up to
49709 a second, whose period is 20117 nanoseconds; with a shorter period a day is too long, and at a
thousand million a second less than five seconds are (`too_many_to_count`).

**Main statements**: `Counting.update_eq` and `run_new_counters`.
-/

namespace ChipEight

open Checked

namespace Summary

/-- Both counters of a summary are below a limit. -/
def Fits (limit : Nat) (s : Summary) : Prop := s.instructions < limit ∧ s.timerTicks < limit

variable {limit : Nat}

instance (s : Summary) : Decidable (s.Fits limit) :=
  inferInstanceAs (Decidable (s.instructions < limit ∧ s.timerTicks < limit))

/-! ### What a move adds -/

theorem add_tick (s : Summary) : s.add .tick = { s with timerTicks := s.timerTicks + 1 } := by
  simp [add, Move.isInstruction, Move.isTick, Move.changesDisplay, Move.waits]

theorem add_failure (s : Summary) (fault : Fault) (journal : List JournalEntry) :
    s.add (.cycle (.error fault) journal) = s := by
  simp [add, Move.isInstruction, Move.isTick, Move.changesDisplay, Move.waits]

theorem add_waitingForKey (s : Summary) (journal : List JournalEntry) :
    s.add (.cycle (.ok .waitingForKey) journal) = { s with waitingForKey := true } := by
  simp [add, Move.isInstruction, Move.isTick, Move.changesDisplay, Move.waits]

theorem add_proceed (s : Summary) (journal : List JournalEntry) :
    s.add (.cycle (.ok .proceed) journal) = { s with instructions := s.instructions + 1 } := by
  simp [add, Move.isInstruction, Move.isTick, Move.changesDisplay, Move.waits]

theorem add_displayChanged (s : Summary) (journal : List JournalEntry) :
    s.add (.cycle (.ok .displayChanged) journal) =
      { s with instructions := s.instructions + 1, displayChanged := true } := by
  simp [add, Move.isInstruction, Move.isTick, Move.changesDisplay, Move.waits]

/-- No move makes a counter smaller. -/
theorem fits_of_add {s : Summary} {move : Move} (h : (s.add move).Fits limit) : s.Fits limit := by
  obtain ⟨hinstructions, hticks⟩ := h
  simp only [add] at hinstructions hticks
  constructor
  · split at hinstructions <;> omega
  · split at hticks <;> omega

end Summary

/-! ### Numbers that have a width -/

namespace Counting

/-- The nanoseconds on a clock are below this. -/
def clockLimit : Nat := Pacer.longest + 1

variable (limit : Nat)

/-- Let the timer clock pass `d` nanoseconds, and tick if it is due. -/
def passTicks (d : Nat) (s : Progress Summary) : Checked (Progress Summary) := do
  let clock ← plus clockLimit s.pacer.tickClock d
  if Pacer.tickPeriod ≤ clock then
    let rest ← minus clock Pacer.tickPeriod
    let timerTicks ← plus limit s.seen.timerTicks 1
    return { s with
      pacer.machine := s.pacer.machine.tick
      pacer.tickClock := rest
      seen.timerTicks := timerTicks }
  else return { s with pacer.tickClock := clock }

/-- Make one cycle. The period is taken off the clock beforehand, and an instruction is counted
afterwards. -/
def makeCycle (period : Nat) (s : Progress Summary) : Checked (Progress Summary) := do
  let rest ← minus s.pacer.cycleClock period
  let (outcome, machine) ← Trapping.cycle.on s.pacer.machine
  match outcome with
  | .error fault => return ⟨⟨machine, 0, s.pacer.tickClock⟩, some fault, s.seen⟩
  | .ok .waitingForKey =>
    return ⟨⟨machine, 0, s.pacer.tickClock⟩, s.fault, { s.seen with waitingForKey := true }⟩
  | .ok .proceed =>
    let instructions ← plus limit s.seen.instructions 1
    return ⟨⟨machine, rest, s.pacer.tickClock⟩, s.fault, { s.seen with instructions }⟩
  | .ok .displayChanged =>
    let instructions ← plus limit s.seen.instructions 1
    return ⟨⟨machine, rest, s.pacer.tickClock⟩, s.fault,
      { s.seen with instructions, displayChanged := true }⟩

/-- Make the cycles that are due, of which there are at most so many. -/
def makeCycles (period : Nat) (s : Progress Summary) : (most : Nat) → Checked (Progress Summary)
  | 0 => .ok s
  | most + 1 =>
    if period ≤ s.pacer.cycleClock then do makeCycles period (← makeCycle limit period s) most
    else .ok s

/-- Let the instruction clock pass `d` nanoseconds and make the cycles that are due, unless a cycle of
this update has failed. -/
def passCycles (d : Nat) (s : Progress Summary) : Checked (Progress Summary) :=
  match s.fault with
  | some _ => .ok s
  | none => do
    -- The clock is never cut off at its limit, so the sum may as well trap there.
    let clock ← plus clockLimit s.pacer.cycleClock d
    makeCycles limit s.pacer.period { s with pacer.cycleClock := clock } (clock / s.pacer.period)

/-- Let some slices of the time that remains pass. -/
def passAll : (ds : List Nat) → (remaining : Nat) → Progress Summary → Checked (Progress Summary)
  | [], _, s => .ok s
  | d :: ds, remaining, s => do
    let remaining ← minus remaining d
    passAll ds remaining (← passCycles limit d (← passTicks limit d s))

/-- Let a duration pass and sum up what happened. -/
def update (p : Pacer) (duration : Nat) : Checked (Progress Summary) :=
  let duration := min duration Pacer.longest
  passAll limit (Pacer.slices duration) duration ⟨p, none, .nothing⟩

/-! ### Room for the counters -/

/-- A progress whose counters are below the limit, and a trap otherwise. -/
def kept (s : Progress Summary) : Checked (Progress Summary) :=
  if s.seen.Fits limit then .ok s else .error .overflow

variable {limit} {s t : Progress Summary} {d period : Nat}

theorem kept_of_fits (h : s.seen.Fits limit) : kept limit s = .ok s := if_pos h

theorem kept_of_not_fits (h : ¬ s.seen.Fits limit) : kept limit s = .error .overflow := if_neg h

/-- What traps when the counters are too small for what it comes to goes on from what is kept. -/
theorem kept_bind {f : Progress Summary → Checked (Progress Summary)}
    (hfits : t.seen.Fits limit → s.seen.Fits limit) (h : s.seen.Fits limit → f s = kept limit t) :
    kept limit s >>= f = kept limit t := by
  by_cases hs : s.seen.Fits limit
  · rw [kept_of_fits hs]
    exact h hs
  · rw [kept_of_not_fits hs, kept_of_not_fits (mt hfits hs)]
    rfl

theorem fits_of_passTicks (h : (s.passTicks Summary.add d).seen.Fits limit) : s.seen.Fits limit := by
  rcases s.passTicks_cases Summary.add d with ⟨-, hs⟩ | ⟨-, hs⟩ <;> rw [hs] at h
  · exact Summary.fits_of_add h
  · exact h

theorem fits_of_makeCycle (h : (s.makeCycle Summary.add period).seen.Fits limit) :
    s.seen.Fits limit := by
  rw [Progress.makeCycle_eq] at h
  exact Summary.fits_of_add h

theorem fits_of_makeCycles {most : Nat}
    (h : (Progress.makeCycles Summary.add period s most).seen.Fits limit) : s.seen.Fits limit := by
  induction most generalizing s with
  | zero => exact h
  | succ most ih =>
    rw [Progress.makeCycles] at h
    split at h
    · exact fits_of_makeCycle (ih h)
    · exact h

theorem fits_of_passCycles (h : (s.passCycles Summary.add d).seen.Fits limit) :
    s.seen.Fits limit := by
  obtain ⟨pacer, _ | fault, seen⟩ := s
  · exact fits_of_makeCycles (s := ⟨{ pacer with cycleClock := pacer.cycleClock + d }, none, seen⟩) h
  · exact h

/-! ### The same update -/

/-- One more is counted if there is room for it. -/
theorem plus_bind {n : Nat} {f : Nat → Progress Summary}
    (hroom : (f (n + 1)).seen.Fits limit ↔ n + 1 < limit) :
    (plus limit n 1 >>= fun n ↦ .ok (f n)) = kept limit (f (n + 1)) := by
  by_cases h : n + 1 < limit
  · rw [plus_eq h, kept_of_fits (hroom.2 h)]
    rfl
  · rw [plus, if_neg h, kept_of_not_fits (mt hroom.1 h)]
    rfl

theorem passTicks_eq (hclock : s.pacer.tickClock + d < clockLimit) (hfits : s.seen.Fits limit) :
    passTicks limit d s = kept limit (s.passTicks Summary.add d) := by
  rw [passTicks, plus_eq hclock, bind_ok]
  rcases s.passTicks_cases Summary.add d with ⟨hdue, hs⟩ | ⟨hrest, hs⟩
  · rw [if_pos hdue, minus_eq hdue, bind_ok, hs, Summary.add_tick]
    exact plus_bind (n := s.seen.timerTicks) (and_iff_right hfits.1)
  · rw [if_neg (Nat.not_le.2 hrest), hs]
    exact (if_pos hfits).symm

theorem makeCycle_eq (hdue : period ≤ s.pacer.cycleClock) (hfits : s.seen.Fits limit) :
    makeCycle limit period s = kept limit (s.makeCycle Summary.add period) := by
  rw [makeCycle, minus_eq hdue, bind_ok, Trapping.on_cycle, bind_ok, Progress.makeCycle]
  rcases houtcome : s.pacer.machine.cycle.outcome with fault | (_ | _ | _)
  · dsimp only
    rw [Summary.add_failure]
    exact (if_pos hfits).symm
  · dsimp only
    rw [Summary.add_proceed]
    exact plus_bind (n := s.seen.instructions) (and_iff_left hfits.2)
  · dsimp only
    rw [Summary.add_displayChanged]
    exact plus_bind (n := s.seen.instructions) (and_iff_left hfits.2)
  · dsimp only
    rw [Summary.add_waitingForKey]
    exact (if_pos hfits).symm

theorem makeCycles_eq (hfits : s.seen.Fits limit) (most : Nat) :
    makeCycles limit period s most = kept limit (Progress.makeCycles Summary.add period s most) := by
  induction most generalizing s with
  | zero => exact (kept_of_fits hfits).symm
  | succ most ih =>
    rw [makeCycles, Progress.makeCycles]
    by_cases hdue : period ≤ s.pacer.cycleClock
    · rw [if_pos hdue, if_pos hdue, makeCycle_eq hdue hfits]
      exact kept_bind fits_of_makeCycles ih
    · rw [if_neg hdue, if_neg hdue, kept_of_fits hfits]

theorem passCycles_eq (hclock : s.pacer.cycleClock + d < clockLimit) (hfits : s.seen.Fits limit) :
    passCycles limit d s = kept limit (s.passCycles Summary.add d) := by
  rw [passCycles, Progress.passCycles]
  cases s.fault with
  | some fault => exact (kept_of_fits hfits).symm
  | none =>
    dsimp only
    rw [plus_eq hclock, bind_ok]
    exact makeCycles_eq (s := ⟨{ s.pacer with cycleClock := s.pacer.cycleClock + d }, none, s.seen⟩)
      hfits _

theorem fits_of_foldl {ds : List Nat}
    (h : (ds.foldl (fun s d ↦ s.pass Summary.add d) s).seen.Fits limit) : s.seen.Fits limit := by
  induction ds generalizing s with
  | nil => exact h
  | cons d ds ih => exact fits_of_passTicks (fits_of_passCycles (ih h))

/-- No slice leaves more than a second on the instruction clock. -/
theorem cycleClock_le_of_slice (hslice : Progress.Slice Summary.add d s t)
    (h : s.pacer.cycleClock ≤ Pacer.second) : t.pacer.cycleClock ≤ Pacer.second := by
  cases hslice with
  | stopped => rwa [Progress.cycleClock_passTicks]
  | running _ cycles =>
    exact Nat.le_trans (Nat.le_of_lt cycles.cycleClock_lt) (Pacer.period_le_second _)

/-- **As long as the counters have room, slices pass as they do without a limit.** -/
theorem passAll_eq {ds : List Nat} (hds : ∀ d ∈ ds, d ≤ Pacer.tickPeriod) {remaining : Nat}
    (htotal : ds.foldr (· + ·) 0 ≤ remaining) (htick : s.pacer.tickClock < Pacer.tickPeriod)
    (hcycle : s.pacer.cycleClock ≤ Pacer.second) (hfits : s.seen.Fits limit) :
    passAll limit ds remaining s
      = kept limit (ds.foldl (fun s d ↦ s.pass Summary.add d) s) := by
  induction ds generalizing s remaining with
  | nil => exact (kept_of_fits hfits).symm
  | cons d ds ih =>
    rw [List.forall_mem_cons] at hds
    rw [List.foldr_cons] at htotal
    have hwidth : Pacer.second + Pacer.tickPeriod < clockLimit := by decide
    have hperiod : Pacer.tickPeriod ≤ Pacer.second := by decide
    have hclock : (s.passTicks Summary.add d).pacer.cycleClock + d < clockLimit := by
      rw [Progress.cycleClock_passTicks]
      omega
    rw [passAll, minus_eq (by omega), bind_ok, passTicks_eq (by omega) hfits, List.foldl_cons]
    refine kept_bind (fun h ↦ fits_of_passCycles (fits_of_foldl h)) fun hticks ↦ ?_
    rw [passCycles_eq hclock hticks]
    refine kept_bind fits_of_foldl fun hcycles ↦ ?_
    have hslice := Progress.slice_pass Summary.add d s
    exact ih hds.2 (by omega) (hslice.tickClock_lt hds.1 htick) (cycleClock_le_of_slice hslice hcycle)
      hcycles

/-- **An update traps exactly if a counter has no room for what it counts**, and otherwise is the one
that counts without a limit. -/
theorem update_eq {p : Pacer} (hpos : 0 < limit) (htick : p.tickClock < Pacer.tickPeriod)
    (hcycle : p.cycleClock ≤ Pacer.second) (duration : Nat) :
    update limit p duration = kept limit (p.advance duration) := by
  rw [update, Pacer.advance, Pacer.update_eq_foldl]
  exact passAll_eq (fun d hd ↦ (Pacer.mem_slices hd).2)
    (Nat.le_of_eq (Pacer.foldr_add_slices _)) htick hcycle ⟨hpos, hpos⟩

end Counting

namespace Pacer

variable {p : Pacer}

/-- Up to a rate of 49709 a day holds fewer periods than thirty-two bits can count. -/
theorem day_div_cyclePeriod_lt {hz : UInt32} (h : hz.toNat ≤ 49709) {clock duration : Nat}
    (hclock : clock < cyclePeriod hz) (hday : duration ≤ 86400 * second) :
    (clock + duration) / cyclePeriod hz < 2 ^ 32 := by
  have hrate : max 1 hz.toNat ≤ 49709 := Nat.max_le.2 ⟨by decide, h⟩
  have hslow : 20117 ≤ second / max 1 hz.toNat :=
    Nat.le_trans (by decide) (Nat.div_le_div_left hrate (Nat.le_max_left 1 _))
  have hperiod : 20117 ≤ cyclePeriod hz := Nat.le_trans hslow (Nat.le_max_right 1 _)
  have hsecond : second = 1000000000 := rfl
  have hpos : 0 < cyclePeriod hz := Nat.le_max_left 1 _
  rw [Nat.div_lt_iff_lt_mul hpos]
  omega

/-- **What an update counts, and whether the numbers it uses are wide enough**, whatever has been asked of
a pacer before, in a duration of a day at most. The ticks and the instructions are counted truly; the
instructions are no more than the periods that the clock holds with the duration, and the ticks are fewer
than 2 ^ 32. With counters that have room for the ticks, the instructions are all that can be too many:
then the update traps, and otherwise nothing in it does. At a rate up to 49709 they are fewer than
2 ^ 32. -/
theorem run_new_counters (m : Machine) (requests : List Request) :
    let p := (new m).run requests
    let c := max 1 (1000000000 / max 1 m.config.cpuHz.toNat)
    ∀ d ≤ 86400 * second,
      let s := p.advance d
      let outcomes := p.machine.outcomes (p.events d)
      s.seen.timerTicks = (p.events d).count .tick ∧ s.seen.timerTicks < 2 ^ 32 ∧
        s.seen.instructions = outcomes.count (.ok .proceed) + outcomes.count (.ok .displayChanged) ∧
        s.seen.instructions ≤ (p.cycleClock + d) / c ∧
        (∀ limit, s.seen.timerTicks < limit →
          Counting.update limit p d = if s.seen.instructions < limit then .ok s else .error .overflow) ∧
        (m.config.cpuHz.toNat ≤ 49709 → s.seen.instructions < 2 ^ 32) := by
  intro p c d hday s outcomes
  have hperiod : p.period = cyclePeriod m.config.cpuHz := period_run (new m) requests
  have hcycles : p.cycleClock < p.period := cycleClock_run_lt (new m).period_pos requests
  have hclock : p.tickClock < tickPeriod := tickClock_run_lt tickPeriod_pos requests
  have hsecond : p.cycleClock ≤ second := Nat.le_trans (Nat.le_of_lt hcycles) p.period_le_second
  have hlongest : d ≤ longest := Nat.le_trans hday (by decide)
  have hticks : s.seen.timerTicks = (p.events d).count .tick := p.timerTicks_advance d
  have hfew : s.seen.timerTicks < 2 ^ 32 := by
    have hbalance := (ticked_advance hclock d).balance
    have hT : tickPeriod = 16666666 := by decide
    have hday : d ≤ 86400 * 1000000000 := hday
    rw [hT] at hbalance hclock
    rw [hticks]
    dsimp only at hbalance
    omega
  have hpaid : s.seen.instructions ≤ (p.cycleClock + d) / p.period := by
    have hwithin := (spent_advance hcycles d).1.within
    have hmade : s.seen.instructions ≤ (p.events d).count .cycle := p.instructions_advance_le d
    rw [Nat.min_eq_left hlongest] at hwithin
    rw [Nat.le_div_iff_mul_le p.period_pos, Nat.mul_comm]
    exact Nat.le_trans (Nat.mul_le_mul_left _ hmade) (Nat.le_of_add_left_le hwithin)
  refine ⟨hticks, hfew, ?_, hpaid.trans_eq (by rw [hperiod]; rfl), fun limit hlimit ↦ ?_,
    fun hrate ↦ ?_⟩
  · show (p.advance d).seen.instructions = _
    rw [seen_advance]
    exact Summary.instructions_ofHistory
  · rw [Counting.update_eq (Nat.zero_lt_of_lt hlimit) hclock hsecond, Counting.kept]
    exact if_congr (and_iff_left hlimit) rfl rfl
  · rw [hperiod] at hcycles hpaid
    exact Nat.lt_of_le_of_lt hpaid (day_div_cyclePeriod_lt hrate hcycles hday)

/-- An instruction that jumps to itself for a whole day, at the fastest rate of which a day can be
counted. -/
theorem day_at_fastest_rate :
    let m := (Machine.powerOn { Config.usual with cpuHz := 49709 } (.ofSeed 0)).run [.load [0x12, 0x00]]
    m.config.cpuHz.toNat ≤ 49709 ∧
      ((new m).advance (86400 * second)).outcome = .ok ⟨4294874981, 5184000, false, false⟩ ∧
        Counting.update (2 ^ 32) (new m) (86400 * second) = .ok ((new m).advance (86400 * second)) := by
  intro m
  have hspin : m.Executes (.jump 0x200) := ⟨by decide, by decide, by decide, by decide⟩
  have hlongest : 86400 * second ≤ longest := by decide
  have hcount := (outcome_advance_of_spin hspin rfl rfl hlongest).2
  have hperiod : (new m).period = 20117 := by decide
  have hticks : 86400 * second / tickPeriod = 5184000 := by decide
  have hrate : m.config.cpuHz.toNat ≤ 49709 := by decide
  obtain ⟨-, hfew, -, -, hwidth, hslow⟩ := run_new_counters m [] (86400 * second) (Nat.le_refl _)
  rw [hperiod, hticks] at hcount
  exact ⟨hrate, hcount, (hwidth _ hfew).trans (if_pos (hslow hrate))⟩

/-- The same instruction at a thousand million a second, for less than five seconds. -/
theorem too_many_to_count :
    let m := (Machine.powerOn { Config.usual with cpuHz := 1000000000 } (.ofSeed 0)).run
      [.load [0x12, 0x00]]
    4294967296 ≤ 86400 * second ∧
      ((new m).advance 4294967296).outcome = .ok ⟨2 ^ 32, 257, false, false⟩ ∧
        Counting.update (2 ^ 32) (new m) 4294967296 = .error .overflow := by
  intro m
  have hspin : m.Executes (.jump 0x200) := ⟨by decide, by decide, by decide, by decide⟩
  have hlongest : 4294967296 ≤ longest := by decide
  have hcount := (outcome_advance_of_spin hspin rfl rfl hlongest).2
  have hperiod : (new m).period = 1 := by decide
  have hticks : 4294967296 / tickPeriod = 257 := by decide
  rw [hperiod, hticks] at hcount
  have hwidth : Counting.update (2 ^ 32) (new m) 4294967296
      = Counting.kept (2 ^ 32) ((new m).advance 4294967296) :=
    Counting.update_eq (by decide) tickPeriod_pos (Nat.zero_le _) 4294967296
  refine ⟨by decide, hcount, hwidth.trans (Counting.kept_of_not_fits fun hfits ↦ ?_)⟩
  rw [(Progress.outcome_eq_ok_iff.1 hcount).2] at hfits
  exact absurd hfits.1 (by decide)

end Pacer

end ChipEight
