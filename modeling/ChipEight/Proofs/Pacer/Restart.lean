import ChipEight.Proofs.Machine.Restart
import ChipEight.Proofs.Pacer.Summaries

/-!
# Keeping time after a new start

A pacer that resets its machine or loads a program starts both of its clocks anew, so nothing of the past
is left in it that is not left in its machine. What two such pacers do from then on is a matter of two
runs side by side, and neither of them decides beforehand how often its loops go round: that depends
on what the cycles come to. So the two are followed step by step (`Level`), through the start of a
slice, a cycle, the cycles of a slice and the slices of an update. What one run does the other does as
well, as long as no cycle asks for a random byte.

As both make the same events and their cycles come to the same, they are summed up alike
(`Summary.ofHistory`), and no answer gives away which of the two it comes from.

**Main statements**: `Abreast.advance`, `Abreast.interchangeable` and `restart_forgets_past`.
-/

namespace ChipEight

/-- Two pacers with the same time on their clocks, and with machines that are alike but for the
generator. -/
structure Pacer.Abreast (p p' : Pacer) : Prop where
  alike : Machine.Alike .generator p.machine p'.machine
  cycleClock_eq : p'.cycleClock = p.cycleClock
  tickClock_eq : p'.tickClock = p.tickClock

/-- Their machines make cycles at the same pace. -/
theorem Pacer.Abreast.period_eq {p p' : Pacer} (h : p.Abreast p') : p'.period = p.period := by
  rw [Pacer.period, Pacer.period, h.alike.eq]

namespace Progress

variable {m : Machine} {d period remaining : Nat} {s s' t : Progress (List Event)}

/-! ### What is remembered -/

/-- A cycle is remembered behind what is remembered already. -/
theorem seen_makeCycle (s : Progress (List Event)) (period : Nat) :
    (s.makeCycle record period).seen = s.seen ++ [.cycle] := by
  rw [makeCycle_eq]
  rfl

theorem prefix_passTicks (s : Progress (List Event)) (d : Nat) :
    s.seen <+: (s.passTicks record d).seen := by
  rcases s.passTicks_cases record d with ⟨-, hs⟩ | ⟨-, hs⟩
  · rw [hs]
    exact List.prefix_append _ _
  · have hseen : (s.passTicks record d).seen = s.seen := by rw [hs]
    exact hseen ▸ List.prefix_rfl

theorem Drains.prefix_seen (h : Drains record period s t) : s.seen <+: t.seen := by
  refine h.preserves (P := fun u ↦ s.seen <+: u.seen) (fun u _ hu ↦ ?_) List.prefix_rfl
  rw [seen_makeCycle]
  exact hu.trans (List.prefix_append _ _)

theorem Slice.prefix_seen (h : Slice record d s t) : s.seen <+: t.seen := by
  have hticks := s.prefix_passTicks d
  cases h with
  | stopped => exact hticks
  | running _ cycles => exact hticks.trans cycles.prefix_seen

theorem Elapses.prefix_seen (h : Elapses record remaining s t) : s.seen <+: t.seen :=
  h.preserves (P := fun _ u ↦ s.seen <+: u.seen)
    (fun _ _ _ _ _ hslice hu ↦ hu.trans hslice.prefix_seen) 0 List.prefix_rfl

/-! ### Two runs side by side -/

/-- Two updates that have come equally far: their pacers are abreast, and what has failed and what has
happened is the same. -/
structure Level (s s' : Progress (List Event)) : Prop where
  abreast : s.pacer.Abreast s'.pacer
  fault_eq : s'.fault = s.fault
  seen_eq : s'.seen = s.seen

theorem Level.passTicks (h : Level s s') (d : Nat) :
    Level (s.passTicks record d) (s'.passTicks record d) := by
  obtain ⟨⟨halike, hcycleClock, htickClock⟩, hfault, hseen⟩ := h
  have hquiet : ∀ op, Moment.Executes ⟨s.pacer.machine, .tick⟩ op → Part.generator.reads op = false :=
    fun _ hop ↦ nomatch hop.1
  obtain ⟨-, htick⟩ := halike.apply rfl hquiet
  rcases s.passTicks_cases record d with ⟨hge, hs⟩ | ⟨hlt, hs⟩
  · obtain ⟨-, hs'⟩ := (s'.passTicks_cases record d).resolve_right
      fun hlt ↦ absurd hge (Nat.not_le.2 (htickClock ▸ hlt.1))
    rw [hs, hs']
    refine ⟨⟨htick, hcycleClock, ?_⟩, hfault, ?_⟩
    · show s'.pacer.tickClock + d - Pacer.tickPeriod = s.pacer.tickClock + d - Pacer.tickPeriod
      rw [htickClock]
    · show record s'.seen .tick = record s.seen .tick
      rw [hseen]
  · obtain ⟨-, hs'⟩ := (s'.passTicks_cases record d).resolve_left
      fun hge ↦ absurd hlt (Nat.not_lt.2 (htickClock ▸ hge.1))
    rw [hs, hs']
    exact ⟨⟨halike, hcycleClock, congrArg (· + d) htickClock⟩, hfault, hseen⟩

/-- The same time is put on both instruction clocks. -/
theorem Level.addTime (h : Level s s') (d : Nat) :
    Level { s with pacer.cycleClock := s.pacer.cycleClock + d }
      { s' with pacer.cycleClock := s'.pacer.cycleClock + d } where
  abreast := ⟨h.abreast.alike, congrArg (· + d) h.abreast.cycleClock_eq, h.abreast.tickClock_eq⟩
  fault_eq := h.fault_eq
  seen_eq := h.seen_eq

/-- A cycle that asks for no random byte is made by both. -/
theorem Level.makeCycle (h : Level s s')
    (heedless : ∀ op, s.pacer.machine.Executes op → Part.generator.reads op = false) (period : Nat) :
    Level (s.makeCycle record period) (s'.makeCycle record period) := by
  obtain ⟨⟨halike, hcycleClock, htickClock⟩, hfault, hseen⟩ := h
  obtain ⟨houtcome, hmachine⟩ := halike.cycle heedless
  have hfailure : s'.pacer.machine.cycle.failure? = s.pacer.machine.cycle.failure? := by
    rw [Cycle.failure?, Cycle.failure?, houtcome]
  rw [makeCycle_eq, makeCycle_eq, houtcome, hcycleClock, hfailure, hfault, hseen]
  exact ⟨⟨hmachine, rfl, htickClock⟩, rfl, rfl⟩

/-- **The cycles of a slice are made by both**, and come to an end after as many. -/
theorem Level.drains (h : Level s s') (hfollows : Follows m s) (cycles : Drains record period s t)
    (hunread : m.RandomUnread t.seen) : ∃ t', Drains record period s' t' ∧ Level t t' := by
  -- Along the loop of the first run: the second one goes on exactly where this one does.
  induction cycles generalizing s' with
  | @rest s hrest =>
    rw [← h.abreast.cycleClock_eq] at hrest
    exact ⟨s', .rest hrest, h⟩
  | @due s t hdue later ih =>
    -- What the loop remembers in the end begins with this cycle, so it asks for no random byte either.
    have hseen := hunread.of_isPrefix later.prefix_seen
    rw [seen_makeCycle, Machine.randomUnread_append, ← hfollows] at hseen
    have hheedless := hseen.2.heedless _ List.mem_cons_self
    obtain ⟨t', hlater, hlevel⟩ := ih (h.makeCycle (fun op hop ↦ hheedless op ⟨rfl, hop⟩) period)
      (hfollows.makeCycle period) hunread
    rw [← h.abreast.cycleClock_eq] at hdue
    exact ⟨t', .due hdue hlater, hlevel⟩

theorem Level.slice (h : Level s s') (hfollows : Follows m s) (hslice : Slice record d s t)
    (hunread : m.RandomUnread t.seen) : ∃ t', Slice record d s' t' ∧ Level t t' := by
  have hticks := h.passTicks d
  cases hslice with
  | stopped hfault =>
    rw [← h.fault_eq] at hfault
    exact ⟨_, .stopped hfault, hticks⟩
  | running hnone cycles =>
    rw [← hticks.abreast.period_eq] at cycles
    obtain ⟨t', hcycles, hlevel⟩ := (hticks.addTime d).drains (hfollows.passTicks d) cycles hunread
    exact ⟨t', .running (h.fault_eq.trans hnone) hcycles, hlevel⟩

/-- **The slices of a duration pass for both.** -/
theorem Level.elapses (h : Level s s') (hfollows : Follows m s)
    (hloops : Elapses record remaining s t) (hunread : m.RandomUnread t.seen) :
    ∃ t', Elapses record remaining s' t' ∧ Level t t' := by
  induction hloops generalizing s' with
  | done => exact ⟨s', .done, h⟩
  | slice hpos first later ih =>
    obtain ⟨t', hfirst, hlevel⟩ := h.slice hfollows first (hunread.of_isPrefix later.prefix_seen)
    obtain ⟨u', hlater, hlevel⟩ := ih hlevel (hfollows.slice first) hunread
    exact ⟨u', .slice hpos hfirst hlater, hlevel⟩

end Progress

/-- What a pacer answers to a request: a summary or a fault to an update, and to anything else what its
machine replies. -/
inductive Answer where
  | summary (outcome : Except Fault Summary)
  | reply (reply : Except Fault (Option Signal))

namespace Pacer

variable {p p' : Pacer}

/-- The answer to a request. -/
def answer (p : Pacer) : Request → Answer
  | .update duration => .summary (p.advance duration).outcome
  | .load program => .reply ((p.load program).map fun _ ↦ none)
  | .reset => .reply (.ok none)
  | .machine event => .reply (p.machine.reply event)

/-- The answers to a list of requests. -/
def answers : Pacer → List Request → List Answer
  | _, [] => []
  | p, request :: requests => p.answer request :: (p.apply request).answers requests

/-- **An update does the same to pacers that are abreast**, and answers the same. -/
theorem Abreast.advance (h : p.Abreast p') {duration : Nat}
    (hunread : p.machine.RandomUnread (p.events duration)) :
    (p'.advance duration).outcome = (p.advance duration).outcome ∧
      (p.advance duration).pacer.Abreast (p'.advance duration).pacer := by
  have hlevel : Progress.Level ⟨p, none, []⟩ ⟨p', none, []⟩ := ⟨h, rfl, rfl⟩
  obtain ⟨t', hloops, habreast, hfault, hevents⟩ :=
    hlevel.elapses (m := p.machine) rfl (p.elapses_events [] duration) hunread
  obtain rfl := hloops.unique (p'.elapses_events [] duration)
  refine ⟨?_, habreast⟩
  have hevents : p'.events duration = p.events duration := hevents
  have hfault : (p'.advance duration).fault = (p.advance duration).fault := hfault
  have houtcomes : p'.machine.outcomes (p.events duration) = p.machine.outcomes (p.events duration) :=
    (h.alike.interchangeable.unread _ hunread).1
  have hseen : (p'.advance duration).seen = (p.advance duration).seen := by
    rw [seen_advance, seen_advance, hevents, Summary.ofHistory, Summary.ofHistory, houtcomes]
  rw [Progress.outcome, Progress.outcome, hfault, hseen]

/-- So does every other request. -/
theorem Abreast.apply (h : p.Abreast p') {request : Request}
    (hunread : p.machine.RandomUnread (p.eventsOf request)) :
    p'.answer request = p.answer request ∧ (p.apply request).Abreast (p'.apply request) := by
  cases request with
  | update duration =>
    obtain ⟨houtcome, habreast⟩ := h.advance hunread
    exact ⟨congrArg Answer.summary houtcome, habreast⟩
  | load program =>
    have hconfig : p'.machine.config = p.machine.config := by rw [h.alike.eq]
    by_cases hfits : program.length ≤ Memory.capacity
    · obtain ⟨loaded, loaded', hload, hload', -, -, hloaded⟩ :=
        Machine.exists_alike_load rfl hconfig hfits
      rw [answer, answer, Pacer.apply, Pacer.apply, load, load, hload, hload']
      exact ⟨rfl, hloaded, rfl, rfl⟩
    · rw [answer, answer, Pacer.apply, Pacer.apply, load, load, p.machine.load_of_not_fits hfits,
        p'.machine.load_of_not_fits hfits]
      exact ⟨rfl, h⟩
  | reset => exact ⟨rfl, h.alike.reset, rfl, rfl⟩
  | machine event =>
    have hheedless := hunread.heedless _ List.mem_cons_self
    exact ⟨congrArg Answer.reply (h.alike.reply hunread), (h.alike.apply rfl hheedless).2,
      h.cycleClock_eq, h.tickClock_eq⟩

/-- **Requests do the same to pacers that are abreast.** -/
theorem Abreast.run (h : p.Abreast p') {requests : List Request}
    (hunread : p.machine.RandomUnread (p.history requests)) :
    p'.answers requests = p.answers requests ∧ (p.run requests).Abreast (p'.run requests) := by
  induction requests generalizing p p' with
  | nil => exact ⟨rfl, h⟩
  | cons request requests ih =>
    rw [history, Machine.randomUnread_append, ← machine_apply] at hunread
    obtain ⟨hanswer, habreast⟩ := h.apply hunread.1
    obtain ⟨hanswers, hrun⟩ := ih habreast hunread.2
    exact ⟨List.cons_eq_cons.2 ⟨hanswer, hanswers⟩, hrun⟩

/-! ### Pacers that cannot be told apart -/

theorem Abreast.exists_generator (h : p.Abreast p') :
    ∃ generator, p' = { p with machine.generator := generator } := by
  obtain ⟨machine, cycleClock, tickClock⟩ := p'
  obtain ⟨halike, rfl, rfl⟩ := h
  obtain ⟨generator, rfl⟩ := halike.exists_generator
  exact ⟨generator, rfl⟩

theorem Abreast.eq_of_generator (h : p.Abreast p')
    (hsame : p'.machine.generator = p.machine.generator) : p' = p := by
  obtain ⟨machine, cycleClock, tickClock⟩ := p'
  obtain ⟨halike, rfl, rfl⟩ := h
  obtain rfl : machine = p.machine := halike.eq_of_generator hsame
  rfl

/-- Two pacers that nobody can tell apart. Whatever is asked of both of them from now on, they answer the
same and stay the same but for the generators of their machines, as long as no random byte is asked for;
and if the generators are at the same place, they stay the same altogether. -/
structure Interchangeable (p p' : Pacer) : Prop where
  unread : ∀ later : List Request, p.machine.RandomUnread (p.history later) →
    p'.answers later = p.answers later ∧
      ∃ generator, p'.run later = { p.run later with machine.generator := generator }
  seeded : p'.machine.generator = p.machine.generator → ∀ later : List Request,
    p'.answers later = p.answers later ∧ p'.run later = p.run later

/-- **Pacers that are abreast cannot be told apart.** -/
theorem Abreast.interchangeable (h : p.Abreast p') : p.Interchangeable p' where
  unread later hunread := by
    obtain ⟨hanswers, hrun⟩ := h.run hunread
    exact ⟨hanswers, hrun.exists_generator⟩
  seeded hsame later := by
    rw [h.eq_of_generator hsame]
    exact ⟨rfl, rfl⟩

/-- **A new start forgets the past.** Of any two machines of one configuration, whatever has happened to
either, a reset makes the machine as it is switched on, but for the generator, also if every field is
assigned in place. A program that fits is taken by both, and from then on nobody can tell them apart.
The same goes for two pacers, whose clocks start anew with their machines. -/
theorem restart_forgets_past (config : Config) (first second : Generator) :
    (∀ past past' : List Event,
      let m := (Machine.powerOn config first).run past
      let m' := (Machine.powerOn config second).run past'
      (∀ generator, m.reset = { Machine.powerOn config generator with generator := m.generator }) ∧
        InPlace.reset.on m = (.ok ⟨⟩, m.reset) ∧ m.reset.Interchangeable m'.reset ∧
          ∀ program : List UInt8, program.length ≤ 3584 →
            ∃ loaded loaded', m.load program = .ok loaded ∧ m'.load program = .ok loaded' ∧
              (InPlace.load program).on m = (.ok ⟨⟩, loaded) ∧
                loaded.generator = m.generator ∧ loaded'.generator = m'.generator ∧
                  loaded.Interchangeable loaded') ∧
      ∀ past past' : List Request,
        let p := (new (Machine.powerOn config first)).run past
        let p' := (new (Machine.powerOn config second)).run past'
        (∀ generator, p.reset = { new (Machine.powerOn config generator) with
            machine.generator := p.machine.generator }) ∧
          p.reset.Interchangeable p'.reset ∧ ∀ program : List UInt8, program.length ≤ 3584 →
            ∃ loaded loaded', p.load program = .ok loaded ∧ p'.load program = .ok loaded' ∧
              loaded.machine.generator = p.machine.generator ∧
                loaded'.machine.generator = p'.machine.generator ∧
                  loaded.Interchangeable loaded' := by
  have hcapacity : Memory.capacity = 3584 := by decide
  rw [← hcapacity]
  constructor
  · intro past past' m m'
    have hconfig : m.config = config := Machine.config_run _ past
    have hconfig' : m'.config = config := Machine.config_run _ past'
    have hdepth : m.stack.depth = m.config.stackDepth :=
      (Machine.sound_run config first past).depth_eq_config
    refine ⟨Machine.reset_of_config hconfig, InPlace.on_reset hdepth,
      (Machine.alike_reset hconfig hconfig').interchangeable, fun program hfits ↦ ?_⟩
    obtain ⟨loaded, loaded', hload, hload', hgenerator, hgenerator', halike⟩ :=
      Machine.exists_alike_load hconfig hconfig' hfits
    have hplace := InPlace.on_load hdepth program
    rw [hload] at hplace
    exact ⟨loaded, loaded', hload, hload', hplace, hgenerator, hgenerator', halike.interchangeable⟩
  · intro past past' p p'
    have hconfig : p.machine.config = config := by
      rw [machine_run]
      exact Machine.config_run _ _
    have hconfig' : p'.machine.config = config := by
      rw [machine_run]
      exact Machine.config_run _ _
    have hreset : p.reset.Abreast p'.reset := ⟨Machine.alike_reset hconfig hconfig', rfl, rfl⟩
    refine ⟨fun generator ↦ congrArg new (Machine.reset_of_config hconfig generator),
      hreset.interchangeable, fun program hfits ↦ ?_⟩
    obtain ⟨loaded, loaded', hload, hload', hgenerator, hgenerator', halike⟩ :=
      Machine.exists_alike_load hconfig hconfig' hfits
    have hloaded : (new loaded).Abreast (new loaded') := ⟨halike, rfl, rfl⟩
    exact ⟨new loaded, new loaded', map_eq_ok_iff.2 ⟨_, hload, rfl⟩, map_eq_ok_iff.2 ⟨_, hload', rfl⟩,
      hgenerator, hgenerator', hloaded.interchangeable⟩

/-- One machine has drawn a random byte and failed, the other one waits for a key in a subroutine. Both
are given a program that waits for a key, and answer the same. And two machines that have drawn nothing
are given a program that does, and draw the same. -/
theorem failed_and_waiting_start_again :
    let config := { Config.usual with cpuHz := 100 }
    let p := (new (Machine.powerOn config (.ofSeed 0))).run
      [.machine (.load [0xC0, 0xFF, 0x51, 0x21]), .update 20000000]
    let p' := (new (Machine.powerOn config (.ofSeed 1))).run
      [.machine (.load [0x22, 0x02, 0xF1, 0x0A]), .update 40000000, .machine (.key 3 true)]
    let program := [0x60, 0x05, 0xF0, 0x15, 0xF1, 0x0A]
    let later : List Request := [.update 40000000, .machine (.key 4 true), .update 25000000]
    let m := (Machine.powerOn config (.ofSeed 0)).run [.load [0x51, 0x21], .cycle]
    let m' := (Machine.powerOn config (.ofSeed 0)).run [.load [0xF1, 0x0A], .cycle, .key 3 true]
    (p.machine.fault = some (.invalidInstruction 0x5121) ∧ p'.machine.keyWait = some 1 ∧
        p'.machine.stack.frames = [0x202] ∧ p'.cycleClock ≠ p.cycleClock ∧ program.length ≤ 3584 ∧
        ∃ loaded loaded', p.load program = .ok loaded ∧ p'.load program = .ok loaded' ∧
          loaded.machine.RandomUnread (loaded.history later) ∧
            loaded'.answers later = loaded.answers later) ∧
      m.fault = some (.invalidInstruction 0x5121) ∧ m'.keyWait = some 1 ∧
        m'.generator = m.generator ∧ ∃ loaded loaded', m.load [0xC0, 0xFF] = .ok loaded ∧
          m'.load [0xC0, 0xFF] = .ok loaded' ∧ loaded'.run [.cycle] = loaded.run [.cycle] := by
  intro config p p' program later m m'
  have hfits : program.length ≤ 3584 := by decide
  have hgenerator : m'.generator = m.generator := by decide
  obtain ⟨-, hpacers⟩ := restart_forgets_past config (.ofSeed 0) (.ofSeed 1)
  obtain ⟨hmachines, -⟩ := restart_forgets_past config (.ofSeed 0) (.ofSeed 0)
  refine ⟨⟨by decide, by decide, by decide, by decide, hfits, ?_⟩, by decide, by decide, hgenerator, ?_⟩
  · obtain ⟨-, -, hload⟩ := hpacers [.machine (.load [0xC0, 0xFF, 0x51, 0x21]), .update 20000000]
      [.machine (.load [0x22, 0x02, 0xF1, 0x0A]), .update 40000000, .machine (.key 3 true)]
    obtain ⟨loaded, loaded', hloaded, hloaded', -, -, hsame⟩ := hload program hfits
    have hunread : (p.apply (.load program)).machine.RandomUnread
        ((p.apply (.load program)).history later) := by decide
    have happly : p.apply (.load program) = loaded := by rw [Pacer.apply, hloaded]
    rw [happly] at hunread
    exact ⟨loaded, loaded', hloaded, hloaded', hunread, (hsame.unread later hunread).1⟩
  · obtain ⟨-, -, -, hload⟩ := hmachines [.load [0x51, 0x21], .cycle]
      [.load [0xF1, 0x0A], .cycle, .key 3 true]
    obtain ⟨loaded, loaded', hloaded, hloaded', -, hseed, hseed', hsame⟩ :=
      hload [0xC0, 0xFF] (by decide)
    have hstream : loaded'.generator = loaded.generator := hseed'.trans (hgenerator.trans hseed.symm)
    exact ⟨loaded, loaded', hloaded, hloaded', (hsame.seeded hstream [.cycle]).2⟩

end Pacer

end ChipEight
