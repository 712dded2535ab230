import ChipEight.Machine.Cycle

/-!
# Keeping a machine in time

A **pacer** drives a machine from a stream of elapsed durations. It has two clocks that know nothing of
each other: one makes a cycle whenever an instruction period has passed, the other ticks the timers
sixty times a second. Each keeps what has passed of its current period, in whole nanoseconds, so no
time is lost between updates.

**Slices.** An update walks through its duration in slices of one timer period, the last one shorter. In
each slice the timers tick first if a tick is due, and then the cycles run that are due. So however
long an update is, an instruction finds the timers where real time has them, or one tick ahead.

**Two things stop the instruction clock**, and neither stops the timers. A wait for a key empties the
clock and ends the slice, so that there is no burst when the key comes. A fault empties it and ends the
cycles of the whole update, which then fails with it.

**Whoever updates says what to remember.** What an update does is a list of moves, ticks and cycles in
order. An update can make very many, so it keeps only what it is told to make of each; the summary is
one such thing to make, the list of moves itself another, and all of them see the same moves
(`seen_update`).
-/

namespace ChipEight

/-- One thing done to the machine while time passes. -/
inductive Move where
  | tick
  | cycle (outcome : Except Fault Signal) (journal : List JournalEntry)

namespace Move

/-- Whether an instruction was carried to its end, or an awaited key taken. -/
def isInstruction : Move → Bool
  | cycle (.ok .proceed) _ | cycle (.ok .displayChanged) _ => true
  | _ => false

/-- Whether the timers ticked. -/
def isTick : Move → Bool
  | tick => true
  | cycle .. => false

/-- Whether the display was drawn on or cleared. -/
def changesDisplay : Move → Bool
  | cycle (.ok .displayChanged) _ => true
  | _ => false

/-- Whether a cycle found the machine waiting for a key, or made it wait. -/
def waits : Move → Bool
  | cycle (.ok .waitingForKey) _ => true
  | _ => false

/-- What a move adds to the journal. -/
def journal : Move → List JournalEntry
  | tick => []
  | cycle _ entries => entries

end Move

/-- What happened during an update. -/
structure Summary where
  instructions : Nat
  timerTicks : Nat
  displayChanged : Bool
  waitingForKey : Bool
  deriving DecidableEq, Repr

namespace Summary

/-- Before anything has happened. -/
def nothing : Summary := ⟨0, 0, false, false⟩

/-- Take a move into account. -/
def add (s : Summary) (move : Move) : Summary where
  instructions := if move.isInstruction then s.instructions + 1 else s.instructions
  timerTicks := if move.isTick then s.timerTicks + 1 else s.timerTicks
  displayChanged := s.displayChanged || move.changesDisplay
  waitingForKey := s.waitingForKey || move.waits

/-- A summary counts the moves of each kind, and says whether there were any. -/
theorem foldl_add (moves : List Move) (s : Summary) :
    moves.foldl add s =
      { instructions := s.instructions + moves.countP Move.isInstruction
        timerTicks := s.timerTicks + moves.countP Move.isTick
        displayChanged := s.displayChanged || moves.any Move.changesDisplay
        waitingForKey := s.waitingForKey || moves.any Move.waits } := by
  induction moves generalizing s with
  | nil => simp
  | cons move moves ih =>
    rw [List.foldl_cons, ih]
    simp only [add, List.countP_cons, List.any_cons, Bool.or_assoc, mk.injEq, and_true]
    constructor <;> split <;> omega

end Summary

/-- A machine and its two clocks, each with the nanoseconds that have passed of its period. -/
structure Pacer where
  machine : Machine
  cycleClock : Nat
  tickClock : Nat
  deriving DecidableEq

namespace Pacer

/-- Nanoseconds in a second. -/
def second : Nat := 1000000000

/-- Nanoseconds between two ticks of the timers. -/
def tickPeriod : Nat := second / Timers.frequency

/-- Nanoseconds between two cycles of a machine that makes `hz` a second: at least one, and a machine
that makes none is taken to make one. -/
def cyclePeriod (hz : UInt32) : Nat := max 1 (second / max 1 hz.toNat)

/-- The longest duration an update takes in one piece. -/
def longest : Nat := 0xFFFFFFFFFFFFFFFF

/-- A machine with both clocks at the start of a period. -/
def new (m : Machine) : Pacer := ⟨m, 0, 0⟩

variable (p : Pacer)

/-- Nanoseconds between two cycles. -/
def period : Nat := cyclePeriod p.machine.config.cpuHz

/-- Something done to the machine alone, whatever time it is. -/
def onMachine (machine : Machine) : Pacer := { p with machine }

/-- Load a program and start both clocks anew. A refused program changes nothing. -/
def load (program : List UInt8) : Except Fault Pacer :=
  (p.machine.load program).map new

/-- Reset the machine and start both clocks anew. -/
def reset : Pacer := new p.machine.reset

end Pacer

/-- An update under way: the fault that ended its cycles, if one did, and what is remembered of its
moves. -/
structure Progress (β : Type) where
  pacer : Pacer
  fault : Option Fault
  seen : β

namespace Progress

variable {β : Type} (watch : β → Move → β) (s : Progress β)

/-- Let the timer clock pass `d` nanoseconds, no more than one period, and tick if it is due. -/
@[inline] def passTicks (d : Nat) : Progress β :=
  let ⟨⟨machine, cycleClock, tickClock⟩, fault, seen⟩ := s
  let clock := tickClock + d
  if Pacer.tickPeriod ≤ clock then
    ⟨⟨machine.tick, cycleClock, clock - Pacer.tickPeriod⟩, fault, watch seen .tick⟩
  else ⟨⟨machine, cycleClock, clock⟩, fault, seen⟩

/-- Make one cycle and take a period off the clock, or empty the clock if the cycle stops it. -/
@[inline] def makeCycle (period : Nat) : Progress β :=
  let ⟨⟨machine, cycleClock, tickClock⟩, fault, seen⟩ := s
  let made := machine.cycle
  let seen := watch seen (.cycle made.outcome made.journal)
  match made.outcome with
  | .error fault => ⟨⟨made.machine, 0, tickClock⟩, some fault, seen⟩
  | .ok .waitingForKey => ⟨⟨made.machine, 0, tickClock⟩, fault, seen⟩
  | .ok .proceed | .ok .displayChanged =>
    ⟨⟨made.machine, cycleClock - period, tickClock⟩, fault, seen⟩

/-- Make the cycles that are due, of which there are at most `limit`. A stopped clock shows less than
a period, so a slice ends where its clock is stopped. -/
@[specialize] def makeCycles (period : Nat) (s : Progress β) : (limit : Nat) → Progress β
  | 0 => s
  | limit + 1 =>
    if period ≤ s.pacer.cycleClock then makeCycles period (s.makeCycle watch period) limit else s

/-- Let the instruction clock pass `d` nanoseconds and make the cycles that are due, unless a cycle of
this update has failed. -/
@[inline] def passCycles (d : Nat) : Progress β :=
  match s.fault with
  | some _ => s
  | none =>
    let clock := s.pacer.cycleClock + d
    let period := s.pacer.period
    makeCycles watch period { s with pacer := { s.pacer with cycleClock := clock } } (clock / period)

/-- Let a slice of time pass: the timers first, then the instructions. -/
@[inline] def pass (d : Nat) : Progress β := (s.passTicks watch d).passCycles watch d

/-- Let a number of slices of one length pass. -/
@[specialize] def passTimes (d : Nat) (s : Progress β) : (times : Nat) → Progress β
  | 0 => s
  | times + 1 => passTimes d (s.pass watch d) times

end Progress

/-- What an update that remembers a summary answers. -/
def Progress.outcome (s : Progress Summary) : Except Fault Summary :=
  match s.fault with
  | some fault => .error fault
  | none => .ok s.seen

/-- An update fails exactly with the fault that ended its cycles. -/
theorem Progress.outcome_eq_error_iff {s : Progress Summary} {fault : Fault} :
    s.outcome = .error fault ↔ s.fault = some fault := by
  unfold outcome
  split <;> rename_i h <;> simp [h]

/-- An update succeeds exactly if no fault has ended its cycles, and then tells what it has seen. -/
theorem Progress.outcome_eq_ok_iff {s : Progress Summary} {summary : Summary} :
    s.outcome = .ok summary ↔ s.fault = none ∧ s.seen = summary := by
  unfold outcome
  split <;> rename_i h <;> simp [h]

namespace Pacer

variable {β : Type} (p : Pacer)

/-- Let a duration pass, in nanoseconds, and make something of each move. -/
@[specialize] def update (watch : β → Move → β) (seen : β) (duration : Nat) : Progress β :=
  let duration := min duration longest
  let whole := Progress.passTimes watch tickPeriod ⟨p, none, seen⟩ (duration / tickPeriod)
  if duration % tickPeriod = 0 then whole else whole.pass watch (duration % tickPeriod)

/-- Let a duration pass and sum up what happened. -/
def advance (duration : Nat) : Progress Summary := p.update Summary.add .nothing duration

/-- The moves made while a duration passes, in order. -/
def moves (duration : Nat) : List Move :=
  (p.update (fun moves move ↦ move :: moves) [] duration).seen.reverse

/-! ### Slices -/

/-- The slices of a duration: whole timer periods, and what is left over. -/
def slices (duration : Nat) : List Nat :=
  List.replicate (duration / tickPeriod) tickPeriod
    ++ (if duration % tickPeriod = 0 then [] else [duration % tickPeriod])

/-- An update is a walk through the slices of its duration. -/
theorem update_eq_foldl (watch : β → Move → β) (seen : β) (duration : Nat) :
    p.update watch seen duration
      = (slices (min duration longest)).foldl (fun s d ↦ s.pass watch d) ⟨p, none, seen⟩ := by
  have times : ∀ (n d : Nat) (s : Progress β), s.passTimes watch d n
      = (List.replicate n d).foldl (fun s d ↦ s.pass watch d) s := by
    intro n
    induction n with
    | zero => exact fun _ _ ↦ rfl
    | succ n ih => exact fun d s ↦ ih d (s.pass watch d)
  simp only [update, slices, List.foldl_append, ← times]
  split <;> rfl

/-- The slices of a duration make it up. -/
theorem foldr_add_slices (duration : Nat) : (slices duration).foldr (· + ·) 0 = duration := by
  have := Nat.div_add_mod' duration tickPeriod
  rw [← List.sum_eq_foldr]
  unfold slices
  split <;> simp <;> omega

/-- No slice is empty, and none is longer than a timer period. -/
theorem mem_slices {duration d : Nat} (h : d ∈ slices duration) : 0 < d ∧ d ≤ tickPeriod := by
  have hT : 0 < tickPeriod := by decide
  simp only [slices, List.mem_append, List.mem_replicate] at h
  rcases h with ⟨-, rfl⟩ | h
  · omega
  · split at h
    · simp at h
    · have := Nat.mod_lt duration hT
      simp only [List.mem_singleton] at h
      omega

/-! ### Every watcher sees the same moves -/

end Pacer

namespace Progress

variable {β γ : Type} {watch : β → Move → β} {watch' : γ → Move → γ} {f : γ → β}

/-- The same progress with something made of what was remembered. -/
def map (f : γ → β) (s : Progress γ) : Progress β := ⟨s.pacer, s.fault, f s.seen⟩

/-- Making something of what a cycle adds is watching that cycle. -/
theorem makeCycle_map (h : ∀ c move, f (watch' c move) = watch (f c) move) (period : Nat)
    (s : Progress γ) :
    (s.map f).makeCycle watch period = (s.makeCycle watch' period).map f := by
  obtain ⟨⟨machine, cycleClock, tickClock⟩, fault, seen⟩ := s
  simp only [makeCycle, map]
  split <;> simp only [h]

theorem makeCycles_map (h : ∀ c move, f (watch' c move) = watch (f c) move) (period limit : Nat)
    (s : Progress γ) :
    makeCycles watch period (s.map f) limit = (makeCycles watch' period s limit).map f := by
  induction limit generalizing s with
  | zero => rfl
  | succ limit ih =>
    simp only [makeCycles, makeCycle_map h]
    by_cases hc : period ≤ s.pacer.cycleClock
    · rw [if_pos hc, if_pos (by exact hc), ih]
    · rw [if_neg hc, if_neg (by exact hc)]

theorem pass_map (h : ∀ c move, f (watch' c move) = watch (f c) move) (d : Nat)
    (s : Progress γ) : (s.map f).pass watch d = (s.pass watch' d).map f := by
  have ticks : (s.map f).passTicks watch d = (s.passTicks watch' d).map f := by
    obtain ⟨⟨machine, cycleClock, tickClock⟩, fault, seen⟩ := s
    by_cases hd : Pacer.tickPeriod ≤ tickClock + d <;> simp [passTicks, map, hd, h]
  rw [pass, ticks, pass]
  generalize s.passTicks watch' d = t
  obtain ⟨pacer, fault, seen⟩ := t
  cases fault with
  | some fault => rfl
  | none => exact makeCycles_map h _ _ ⟨{ pacer with cycleClock := pacer.cycleClock + d }, none, seen⟩

theorem foldl_pass_map (h : ∀ c move, f (watch' c move) = watch (f c) move) (ds : List Nat)
    (s : Progress γ) :
    ds.foldl (fun s d ↦ s.pass watch d) (s.map f)
      = (ds.foldl (fun s d ↦ s.pass watch' d) s).map f := by
  induction ds generalizing s with
  | nil => rfl
  | cons d ds ih => rw [List.foldl_cons, pass_map h, ih, List.foldl_cons]

/-- What is remembered makes no difference to what happens in the slices. -/
theorem foldl_pass_agree (watch : β → Move → β) (watch' : γ → Move → γ) {s : Progress β}
    {s' : Progress γ} (hpacer : s.pacer = s'.pacer) (hfault : s.fault = s'.fault) (ds : List Nat) :
    (ds.foldl (fun s d ↦ s.pass watch d) s).pacer
        = (ds.foldl (fun s d ↦ s.pass watch' d) s').pacer ∧
      (ds.foldl (fun s d ↦ s.pass watch d) s).fault
        = (ds.foldl (fun s d ↦ s.pass watch' d) s').fault := by
  have forget {δ : Type} (watch : δ → Move → δ) (s : Progress δ) :
      ds.foldl (fun (s : Progress Unit) d ↦ s.pass (fun _ _ ↦ ()) d) (s.map fun _ ↦ ())
        = (ds.foldl (fun s d ↦ s.pass watch d) s).map fun _ ↦ () :=
    foldl_pass_map (fun _ _ ↦ rfl) ds s
  have hstart : s.map (fun _ ↦ ()) = s'.map fun _ ↦ () := by rw [map, map, hpacer, hfault]
  have hend := forget watch s
  rw [hstart, forget watch' s'] at hend
  exact ⟨(congrArg Progress.pacer hend).symm, (congrArg Progress.fault hend).symm⟩

end Progress

namespace Pacer

variable {β γ : Type} (p : Pacer)

theorem update_map {watch : β → Move → β} {watch' : γ → Move → γ} {f : γ → β}
    (h : ∀ c move, f (watch' c move) = watch (f c) move) (seen : γ) (duration : Nat) :
    p.update watch (f seen) duration = (p.update watch' seen duration).map f := by
  rw [update_eq_foldl, update_eq_foldl]
  exact Progress.foldl_pass_map h _ ⟨p, none, seen⟩

/-- **Every watcher sees the moves**, from the first to the last. -/
theorem seen_update (watch : β → Move → β) (seen : β) (duration : Nat) :
    (p.update watch seen duration).seen = (p.moves duration).foldl watch seen := by
  have : p.update watch seen duration
      = (p.update (fun moves move ↦ move :: moves) [] duration).map
          fun moves ↦ moves.reverse.foldl watch seen :=
    p.update_map (f := fun moves ↦ moves.reverse.foldl watch seen) (by simp) [] duration
  exact congrArg Progress.seen this

/-- What is remembered makes no difference to what an update does. -/
theorem update_agree (watch : β → Move → β) (seen : β) (duration : Nat) :
    (p.update watch seen duration).pacer = (p.advance duration).pacer ∧
      (p.update watch seen duration).fault = (p.advance duration).fault := by
  rw [advance, update_eq_foldl, update_eq_foldl]
  exact Progress.foldl_pass_agree watch Summary.add rfl rfl _

end Pacer

end ChipEight
