import ChipEight.Proofs.Clockwork.Order
import ChipEight.Proofs.Machine.Moments

/-!
# Starting and stopping the clocks

What a controller can rely on, whatever clocks and controller do in whatever order.

Two things that clocks never lose carry it. A clock that has finished **has finished for good**: no
action gives it another turn (`clock_notMem`). And when a stop returns the clocks are **still**: none
is held, so by the order they are kept in all have finished, and until the next start there is nobody
who could take a turn (`Still.clock_notMem`). The machine is then what the purpose of the stop made of
it.

The other way round, the flag stays up until a stop takes it down, and as long as it is up a timer
clock goes on, whatever has become of the instruction clock (`performAll_timers`). A stop that was
called can always return (`stop_returns`), because a clock that sees the flag down takes at most two
more turns.

`performAll_lifecycle` puts this together for every interleaving.
-/

namespace ChipEight

namespace Clockwork

variable {c d e : Clockwork} {action : Action} {later : List Action} {i j : Nat} {clock : Clock}

/-! ### Interleavings in parts -/

theorem performAll_append {before after : List Action} :
    c.performAll (before ++ after) = (c.performAll before).bind (·.performAll after) := by
  induction before generalizing c with
  | nil => rfl
  | cons action before ih =>
    rw [List.cons_append, performAll, performAll, Option.bind_assoc]
    exact congrArg _ (funext fun _ ↦ ih)

/-- An action was possible when it was performed. -/
theorem exists_of_mem_performAll (hmem : action ∈ later) (hall : c.performAll later = some e) :
    ∃ before after middle next, later = before ++ action :: after ∧
      c.performAll before = some middle ∧ middle.perform action = some next := by
  obtain ⟨before, after, rfl⟩ := List.append_of_mem hmem
  rw [performAll_append] at hall
  obtain ⟨middle, hbefore, hrest⟩ := Option.bind_eq_some_iff.1 hall
  obtain ⟨next, hperform, -⟩ := Option.bind_eq_some_iff.1 hrest
  exact ⟨before, after, middle, next, rfl, hbefore, hperform⟩

/-! ### Clocks that have finished -/

/-- Whatever clock there is in a place, it has finished. -/
def Ended (c : Clockwork) (i : Nat) : Prop :=
  ∀ clock, c.clocks[i]? = some clock → clock.phase = .finished

/-- **A clock can act exactly until it has finished.** -/
theorem perform_clock_eq_none_iff : c.perform (.clock i) = none ↔ c.Ended i := by
  rw [perform, Option.bind_eq_none_iff]
  exact forall₂_congr fun clock _ ↦ Option.map_eq_none_iff.trans turn_eq_none_iff

theorem not_live_of_ended {duty : Duty} (ended : c.Ended i) : ¬ c.Live i duty :=
  fun ⟨_, hphase, hlive⟩ ↦ hlive (ended _ hphase)

/-- No action touches a clock that has finished. -/
theorem Deed.finished (deed : Deed c action d) (there : c.clocks[i]? = some clock)
    (finished : clock.phase = .finished) : d.clocks[i]? = some clock := by
  cases deed with
  | @turn j other _ _ hother hturn =>
    by_cases hij : i = j
    · subst hij
      obtain rfl := Option.some.inj (there.symm.trans hother)
      rw [turn_eq_none_iff.2 finished] at hturn
      cases hturn
    · exact (List.getElem?_set_ne (Ne.symm hij)).trans there
  | spawn =>
    obtain ⟨hlt, -⟩ := List.getElem?_eq_some_iff.1 there
    exact (List.getElem?_append_left hlt).trans there
  | startAgain | start | started | stop | letGo | stopped | key => exact there

/-- Under an invariant by which a clock has finished, the clock does not act. -/
theorem clock_notMem_of_deed {P : Clockwork → Prop} {Q : Action → Prop}
    (step : ∀ {c action d}, Q action → Deed c action d → P c → P d)
    (ended : ∀ {c : Clockwork}, P c → c.Ended i) (hQ : ∀ action ∈ later, Q action) (h : P c)
    (hall : c.performAll later = some e) : .clock i ∉ later := by
  intro hmem
  obtain ⟨before, after, middle, next, rfl, hbefore, hperform⟩ :=
    exists_of_mem_performAll hmem hall
  have hmiddle : P middle :=
    performAll_of_deed step (fun action haction ↦ hQ action (List.mem_append_left _ haction)) h hbefore
  rw [perform_clock_eq_none_iff.2 (ended hmiddle)] at hperform
  cases hperform

/-- **A clock that has finished has finished for good.** -/
theorem clock_notMem (there : c.clocks[i]? = some clock) (finished : clock.phase = .finished)
    (hall : c.performAll later = some e) : .clock i ∉ later := by
  refine clock_notMem_of_deed (P := fun c ↦ c.clocks[i]? = some clock) (Q := fun _ ↦ True)
    (fun _ deed there ↦ deed.finished there finished) (fun {c} there other hother ↦ ?_)
    (fun _ _ ↦ trivial) there hall
  rw [← Option.some.inj (there.symm.trans hother), finished]

/-- What a turn comes to when it is taken. -/
theorem perform_clock {phase : Phase} {machine : Machine} (there : c.clocks[i]? = some clock)
    (hturn : c.turn clock = some (phase, machine)) :
    c.perform (.clock i) =
      some { c with machine, clocks := c.clocks.set i { clock with phase } } := by
  rw [perform, there, Option.bind_some, hturn]
  rfl

/-- A cycle that fails is the last turn of its clock. -/
theorem turn_of_fault {fault : Fault} (failed : c.machine.cycle.outcome = .error fault) :
    c.turn ⟨.instructions, .working⟩ = some (.finished, c.machine.cycle.machine) := by
  simp only [turn, failed]

/-! ### Clocks at a standstill -/

/-- All clocks have finished, and none is held or being started. -/
structure Still (c : Clockwork) : Prop where
  free : c.held = []
  ended : ∀ i, c.Ended i
  unasked : ∀ pending, c.call ≠ some (.start pending)

/-- **Only a start ends a standstill.** -/
theorem Still.deed (still : c.Still) (hstart : action ≠ .start) (deed : Deed c action d) :
    d.Still := by
  cases deed with
  | startAgain | start => exact absurd rfl hstart
  | turn there hturn =>
    rw [turn_eq_none_iff.2 (still.ended _ _ there)] at hturn
    cases hturn
  | spawn hcall | started hcall => exact absurd hcall (still.unasked _)
  | letGo _ first _ => exact absurd (first.symm.trans still.free) (List.cons_ne_nil _ _)
  | stop | stopped => exact ⟨still.free, still.ended, nofun⟩
  | key => exact ⟨still.free, still.ended, still.unasked⟩

/-- **During a standstill no clock acts.** -/
theorem Still.clock_notMem (still : c.Still) (hstart : .start ∉ later)
    (hall : c.performAll later = some e) (i : Nat) : .clock i ∉ later :=
  clock_notMem_of_deed (P := Still) (Q := (· ≠ .start)) (fun hne deed still ↦ still.deed hne deed)
    (fun still ↦ still.ended i) (fun _ haction heq ↦ hstart (heq ▸ haction)) still hall

/-- **When a stop returns the clocks stand still**, and its purpose has been attended to. -/
theorem Orderly.still_of_return {purpose : Purpose} (h : c.Orderly)
    (hcall : c.call = some (.stop purpose)) (hperform : c.perform .proceed = some d)
    (hreturn : d.call = none) : d.machine = purpose.act c.machine ∧ d.Still := by
  cases deed_of_perform hperform with
  | spawn hother | started hother => cases hcall.symm.trans hother
  | letGo _ _ _ => cases hcall.symm.trans hreturn
  | @stopped other hother free =>
    obtain rfl : purpose = other := Call.stop.inj (Option.some.inj (hcall.symm.trans hother))
    refine ⟨rfl, free, fun i clock there ↦ h.finished i clock there ?_, nofun⟩
    rw [free]
    exact List.not_mem_nil

/-! ### Clocks that go on -/

/-- **At most one clock of each duty has not finished.** -/
theorem Orderly.eq_of_live {duty : Duty} (h : c.Orderly) (hi : c.Live i duty) (hj : c.Live j duty) :
    i = j := by
  obtain ⟨before, hbefore, hlive⟩ := hi
  obtain ⟨after, hafter, hlive'⟩ := hj
  have hheld : i ∈ c.held := Decidable.byContradiction fun hfree ↦ hlive (h.finished i _ hbefore hfree)
  have hheld' : j ∈ c.held := Decidable.byContradiction fun hfree ↦ hlive' (h.finished j _ hafter hfree)
  exact h.apart i hheld j hheld' _ _ hbefore hafter rfl

/-- Starting while clocks are held does nothing. -/
theorem perform_start_of_held (idle : c.call = none) (holds : c.held ≠ []) :
    c.perform .start = some c := by
  have hidle : c.call.isSome = false := by rw [idle]; rfl
  rw [perform, if_neg (hidle ▸ Bool.false_ne_true),
    if_neg fun hfree ↦ holds (List.isEmpty_iff.1 hfree)]

/-- Between a start and a stop the flag is up, and the timer clock has not finished. -/
theorem Orderly.timers_of_held (h : c.Orderly) (idle : c.call = none) (holds : c.held ≠ []) :
    c.running = true ∧ ∃ j ∈ c.held, c.Live j .timers := by
  have running : c.running = true := by
    rw [h.flag, wanted, idle, List.isEmpty_eq_false_iff.2 holds]
    rfl
  have hpending : c.pending = [] := by rw [pending, idle]
  rcases h.timers running with hmem | hlive
  · rw [hpending] at hmem
    cases hmem
  · exact ⟨running, hlive⟩

/-- **A timer clock goes on until the clocks are stopped.** -/
theorem performAll_timers (running : c.running = true) (live : c.Live j .timers)
    (hstop : ∀ purpose, .stop purpose ∉ later) (hall : c.performAll later = some e) :
    e.running = true ∧ e.Live j .timers :=
  performAll_of_deed (P := fun c ↦ c.running = true ∧ c.Live j .timers)
    (Q := fun action ↦ ∀ purpose, action ≠ .stop purpose)
    (fun hstop deed h ↦ deed.timers hstop h.1 h.2)
    (fun _ haction purpose heq ↦ hstop purpose (heq ▸ haction)) ⟨running, live⟩ hall

/-- A timer clock that goes on is at most a look away from its next tick. -/
theorem tick_of_live (running : c.running = true) (live : c.Live j .timers) :
    ∃ turns ∈ [[Action.clock j], [.clock j, .clock j]], ∃ d, c.performAll turns = some d ∧
      d.machine = c.machine.tick := by
  have htick : ∀ c : Clockwork, c.clocks[j]? = some ⟨.timers, .working⟩ →
      ∃ d, c.performAll [.clock j] = some d ∧ d.machine = c.machine.tick := by
    intro c there
    have hturn : c.turn ⟨.timers, .working⟩ = some (.looking, c.machine.tick) := rfl
    refine ⟨{ c with
      machine := c.machine.tick
      clocks := c.clocks.set j ⟨.timers, .looking⟩ }, ?_, rfl⟩
    rw [performAll, perform_clock there hturn]
    rfl
  obtain ⟨phase, there, hlive⟩ := live
  cases phase with
  | finished => exact absurd rfl hlive
  | working => exact ⟨_, List.mem_cons_self, htick c there⟩
  | looking =>
    have hturn : c.turn ⟨.timers, .looking⟩ = some (.working, c.machine) := by
      simp only [turn, running, if_true]
    obtain ⟨hlt, -⟩ := List.getElem?_eq_some_iff.1 there
    obtain ⟨d, hd, hmachine⟩ :=
      htick { c with clocks := c.clocks.set j ⟨.timers, .working⟩ } (List.getElem?_set_self hlt)
    refine ⟨_, List.mem_cons_of_mem _ List.mem_cons_self, d, ?_, hmachine⟩
    rw [performAll, perform_clock there hturn, Option.bind_some]
    exact hd

/-! ### Stops that return -/

/-- Turns of clocks leave the controller and the flag as they are. -/
theorem frame_of_turns {turns : List Action} (hturns : ∀ action ∈ turns, action = .clock i)
    (hall : c.performAll turns = some d) :
    d.running = c.running ∧ d.held = c.held ∧ d.call = c.call := by
  refine performAll_of_deed (Q := (· = .clock i))
    (P := fun d ↦ d.running = c.running ∧ d.held = c.held ∧ d.call = c.call) ?_ hturns
    ⟨rfl, rfl, rfl⟩ hall
  rintro c _ d rfl deed h
  cases deed
  exact h

/-- A clock that has done its duty looks again or has finished. -/
theorem phase_of_turn_working {duty : Duty} {phase : Phase} {machine : Machine}
    (h : c.turn ⟨duty, .working⟩ = some (phase, machine)) : phase ≠ .working := by
  rintro rfl
  cases duty with
  | timers => cases h
  | instructions =>
    simp only [turn] at h
    split at h <;> cases h

/-- A clock that is not at work finishes when it sees the flag down. -/
theorem exists_ended_of_not_working (down : c.running = false) (there : c.clocks[i]? = some clock)
    (hphase : clock.phase ≠ .working) :
    ∃ turns d, (∀ action ∈ turns, action = .clock i) ∧ c.performAll turns = some d ∧ d.Ended i := by
  obtain ⟨duty, phase⟩ := clock
  cases phase with
  | working => exact absurd rfl hphase
  | finished =>
    refine ⟨[], c, List.forall_mem_nil _, rfl, fun other hother ↦ ?_⟩
    rw [← Option.some.inj (there.symm.trans hother)]
  | looking =>
    have hturn : c.turn ⟨duty, .looking⟩ = some (.finished, c.machine) := by
      simp only [turn, down, Bool.false_eq_true, if_false]
    refine ⟨[.clock i], { c with clocks := c.clocks.set i ⟨duty, .finished⟩ },
      List.forall_mem_singleton.2 rfl, ?_, fun other hother ↦ ?_⟩
    · rw [performAll, perform_clock there hturn]
      rfl
    · rcases getElem?_turn there hother with ⟨-, rfl⟩ | ⟨hne, -⟩
      · rfl
      · exact absurd rfl hne

/-- **A clock that finds the flag down can take the turns that are left to it.** -/
theorem exists_ended (down : c.running = false) (i : Nat) :
    ∃ turns d, (∀ action ∈ turns, action = .clock i) ∧ c.performAll turns = some d ∧ d.Ended i := by
  rcases hthere : c.clocks[i]? with _ | ⟨duty, phase⟩
  · refine ⟨[], c, List.forall_mem_nil _, rfl, fun other hother ↦ ?_⟩
    cases hthere.symm.trans hother
  · by_cases hphase : phase = .working
    · subst hphase
      obtain ⟨⟨phase, machine⟩, hturn⟩ : ∃ after, c.turn ⟨duty, .working⟩ = some after :=
        Option.ne_none_iff_exists'.1 fun hnone ↦ Phase.noConfusion (turn_eq_none_iff.1 hnone)
      obtain ⟨hlt, -⟩ := List.getElem?_eq_some_iff.1 hthere
      -- It does its duty once more, and is then about to look.
      let next : Clockwork := { c with machine, clocks := c.clocks.set i ⟨duty, phase⟩ }
      have hnext : next.clocks[i]? = some ⟨duty, phase⟩ := List.getElem?_set_self hlt
      obtain ⟨turns, d, hturns, hall, hended⟩ :=
        exists_ended_of_not_working (c := next) down hnext (phase_of_turn_working hturn)
      refine ⟨.clock i :: turns, d, List.forall_mem_cons.2 ⟨rfl, hturns⟩, ?_, hended⟩
      rw [performAll, perform_clock hthere hturn, Option.bind_some]
      exact hall
    · exact exists_ended_of_not_working down hthere hphase

/-- **A stop can return**, by turns of the clocks that it waits for and by going on. -/
theorem stop_returns {purpose : Purpose} (h : c.Orderly) (hcall : c.call = some (.stop purpose)) :
    ∃ rest d, (∀ action ∈ rest, action = .proceed ∨ ∃ i ∈ c.held, action = .clock i) ∧
      c.performAll rest = some d ∧ d.call = none := by
  have down : c.running = false := by rw [h.flag, wanted, hcall]
  clear h
  generalize hheld : c.held = held
  induction held generalizing c with
  | nil =>
    refine ⟨[.proceed], { c with machine := purpose.act c.machine, call := none },
      List.forall_mem_singleton.2 (.inl rfl), ?_, rfl⟩
    rw [performAll, perform, proceed, hcall]
    simp only [hheld]
    rfl
  | cons i held ih =>
    obtain ⟨turns, d, hturns, hall, hended⟩ := exists_ended down i
    obtain ⟨hrunning, hsame, hcall'⟩ := frame_of_turns hturns hall
    have hletGo : d.perform .proceed = some { d with held } := by
      rw [perform, proceed, hcall', hcall]
      simp only [hsame, hheld]
      refine if_pos ?_
      rcases hthere : d.clocks[i]? with _ | clock
      · rfl
      · exact beq_iff_eq.2 (hended clock hthere)
    obtain ⟨rest, e, hrest, hall', hreturn⟩ :=
      ih (c := { d with held }) (hcall'.trans hcall) (hrunning.trans down) rfl
    refine ⟨turns ++ .proceed :: rest, e, ?_, ?_, hreturn⟩
    · rw [List.forall_mem_append, List.forall_mem_cons]
      refine ⟨fun action haction ↦ .inr ⟨i, List.mem_cons_self, hturns action haction⟩, .inl rfl,
        fun action haction ↦ (hrest action haction).imp id ?_⟩
      exact Exists.imp fun _ h ↦ ⟨List.mem_cons_of_mem _ h.1, h.2⟩
    · rw [performAll_append, hall, Option.bind_some, performAll, hletGo, Option.bind_some]
      exact hall'

/-! ### The lifecycle -/

/-- The machine that a program which fits is loaded into, and any other machine as it is. -/
theorem act_load (m : Machine) (program : List UInt8) :
    (Purpose.load program).act m =
      if program.length ≤ Memory.capacity then
        { Machine.powerOn m.config m.generator with
          memory := Memory.powerOn.place Memory.programStart program }
      else m := by
  by_cases hfits : program.length ≤ Memory.capacity
  · rw [if_pos hfits, Purpose.act, Machine.load_of_fits m hfits]
    rfl
  · rw [if_neg hfits, Purpose.act, Machine.load_of_not_fits m hfits]

/-- **The life of the clocks, after every interleaving.** At most one clock of each duty has not
finished, and starting while clocks are held does nothing. When a stop returns, its purpose has been
attended to, no clock is held, all have finished, and none acts until the next start. To load a program
that is accepted is to switch the machine on with the program in memory, and one that is refused leaves
the machine as it was. A cycle that fails is the last turn of its clock. And while clocks are held and
not being stopped there is a timer clock that can tick, and so it can after any actions but a stop. -/
theorem performAll_lifecycle {m : Machine} {actions : List Action}
    (hall : (new m).performAll actions = some c) :
    (∀ duty i j, c.Live i duty → c.Live j duty → i = j) ∧
    (c.call = none → c.held ≠ [] → c.perform .start = some c) ∧
    (∀ purpose d, c.call = some (.stop purpose) → c.perform .proceed = some d → d.call = none →
      d.machine = purpose.act c.machine ∧ d.held = [] ∧ (∀ i duty, ¬ d.Live i duty) ∧
      ∀ later e, .start ∉ later → d.performAll later = some e → ∀ i, .clock i ∉ later) ∧
    (∀ program, (Purpose.load program).act c.machine =
      if program.length ≤ Memory.capacity then
        { Machine.powerOn c.machine.config c.machine.generator with
          memory := Memory.powerOn.place Memory.programStart program }
      else c.machine) ∧
    (∀ i fault, c.clocks[i]? = some ⟨.instructions, .working⟩ →
      c.machine.cycle.outcome = .error fault →
      ∃ d, c.perform (.clock i) = some d ∧ d.machine = c.machine.cycle.machine ∧
        ∀ later e, d.performAll later = some e → .clock i ∉ later) ∧
    (c.call = none → c.held ≠ [] → c.running = true ∧ ∃ j ∈ c.held, c.Live j .timers) ∧
    (∀ j, c.running = true → c.Live j .timers → ∀ later d, (∀ purpose, .stop purpose ∉ later) →
      c.performAll later = some d →
      ∃ turns ∈ [[Action.clock j], [.clock j, .clock j]], ∃ e, d.performAll turns = some e ∧
        e.machine = d.machine.tick) := by
  have orderly : c.Orderly := orderly_performAll hall
  refine ⟨fun _ _ _ ↦ orderly.eq_of_live, perform_start_of_held, ?_, act_load c.machine, ?_,
    orderly.timers_of_held, ?_⟩
  · intro purpose d hcall hperform hreturn
    obtain ⟨hmachine, still⟩ := orderly.still_of_return hcall hperform hreturn
    exact ⟨hmachine, still.free, fun i _ ↦ not_live_of_ended (still.ended i),
      fun _ _ hstart hlater ↦ still.clock_notMem hstart hlater⟩
  · intro i fault there failed
    obtain ⟨hlt, -⟩ := List.getElem?_eq_some_iff.1 there
    exact ⟨_, perform_clock there (turn_of_fault failed), rfl,
      fun _ _ ↦ clock_notMem (List.getElem?_set_self hlt) rfl⟩
  · intro j running live later d hstop hlater
    obtain ⟨running', live'⟩ := performAll_timers running live hstop hlater
    exact tick_of_live running' live'

/-- The first word of a program is no instruction. Its clock finishes but stays held, so another start
does nothing, and the timers can still tick. Then another program is loaded. -/
theorem load_after_fault :
    let m := Machine.powerOn .usual (.ofSeed 0)
    let faulted : List Action :=
      [.stop (.load [0x00, 0x00]), .proceed, .start, .proceed, .proceed, .proceed, .clock 0, .clock 0]
    let stopping : List Action :=
      faulted ++ [.clock 1, .stop (.load [0x12, 0x00]), .clock 1, .clock 1, .proceed, .proceed]
    (∃ c, (new m).performAll faulted = some c ∧ c.machine.fault ≠ none ∧ c.perform .start = some c ∧
      ∃ turns ∈ [[Action.clock 1], [.clock 1, .clock 1]], ∃ d, c.performAll turns = some d ∧
        d.machine = c.machine.tick) ∧
    ∃ c d, (new m).performAll stopping = some c ∧ c.perform .proceed = some d ∧
      d.machine = { Machine.powerOn c.machine.config c.machine.generator with
        memory := Memory.powerOn.place Memory.programStart [0x12, 0x00] } ∧
      ∀ later e, .start ∉ later → d.performAll later = some e → ∀ i, .clock i ∉ later := by
  intro m faulted stopping
  have hfaulted : ((new m).performAll faulted).map
      (fun c ↦ (c.machine.fault, c.held, c.call, c.running, c.clocks[1]?)) =
      some (some (.invalidInstruction 0), [0, 1], none, true, some ⟨.timers, .looking⟩) := by decide
  have hstopping : ((new m).performAll stopping).map (fun c ↦ (c.held, c.call)) =
      some ([], some (.stop (.load [0x12, 0x00]))) := by decide
  obtain ⟨c, hc, hview⟩ := Option.map_eq_some_iff.1 hfaulted
  obtain ⟨d, hd, hview'⟩ := Option.map_eq_some_iff.1 hstopping
  simp only [Prod.mk.injEq] at hview hview'
  obtain ⟨hfault, hheld, hidle, running, hclock⟩ := hview
  obtain ⟨hfree, hcall⟩ := hview'
  obtain ⟨-, hagain, -, -, -, -, htick⟩ := performAll_lifecycle hc
  obtain ⟨-, -, hreturn, hload, -, -, -⟩ := performAll_lifecycle hd
  refine ⟨⟨c, hc, ?_, ?_, ?_⟩, d, { d with
    machine := (Purpose.load [0x12, 0x00]).act d.machine
    call := none }, hd, ?_⟩
  · rw [hfault]
    exact Option.some_ne_none _
  · exact hagain hidle (hheld ▸ List.cons_ne_nil _ _)
  · exact htick 1 running ⟨.looking, hclock, Phase.noConfusion⟩ [] c (fun _ ↦ List.not_mem_nil) rfl
  · have hproceed : d.perform .proceed = some { d with
        machine := (Purpose.load [0x12, 0x00]).act d.machine
        call := none } := by
      rw [perform, proceed, hcall]
      simp only [hfree]
    obtain ⟨-, -, -, hquiet⟩ := hreturn _ _ hcall hproceed rfl
    have hfits : ([0x12, 0x00] : List UInt8).length ≤ Memory.capacity := by decide
    exact ⟨hproceed, (hload [0x12, 0x00]).trans (if_pos hfits), hquiet⟩

end Clockwork

end ChipEight
