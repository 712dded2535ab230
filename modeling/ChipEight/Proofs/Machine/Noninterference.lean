import ChipEight.Proofs.Machine.Moments

/-!
# What a program does not notice

Three parts of a machine are moved by something other than its program: the timers by their ticks, the
keypad by whoever plays, and the random stream by what was drawn before. A program finds out about
each of them through a few instructions only. As long as it carries none of these out, it runs the
same whatever the part is: the same cycles succeed, the same ones fail, and the machine stays the same
but for that part.

The proof is a simulation. Two machines are **alike** but for a part (`Alike`); an instruction that
does not read the part comes to the same on both and leaves them alike (`Alike.execute`), so does a
cycle (`Alike.cycle`), and an event that moves nothing but the part may happen to one of them and not
to the other. The keypad needs one thing more: a machine that waits for a key looks at it without
carrying anything out, so there machines are alike only while they do not wait.

**Main statements**: `Alike.run`, for any of the parts, and `run_unnoticed` for the ticks and the keys.
-/

namespace ChipEight

/-- A part of a machine that is moved from outside its program. -/
inductive Part where
  | timers
  | keypad
  | generator
  deriving DecidableEq

namespace Part

/-- Whether an instruction looks at a part. -/
def reads : Part → Opcode → Bool
  | timers, .readDelay _ => true
  | keypad, .skip (.keyHeld _) | keypad, .skip (.keyReleased _) | keypad, .awaitKey _ => true
  | generator, .random .. => true
  | _, _ => false

/-- Whether an event moves a part and nothing else. -/
def movedBy : Part → Event → Bool
  | timers, .tick => true
  | keypad, .key .. => true
  | _, _ => false

/-- The events of a history that do something else than to move a part. -/
def others (part : Part) (events : List Event) : List Event :=
  events.filter fun event ↦ !part.movedBy event

end Part

namespace Machine

variable {m m' : Machine} {part : Part} {op : Opcode}

/-- Two machines that differ in one part at most, and do not wait if it is the keypad. -/
structure Alike (part : Part) (m m' : Machine) : Prop where
  eq : m' = { m with timers := m'.timers, keypad := m'.keypad, generator := m'.generator }
  timers_eq : part ≠ .timers → m'.timers = m.timers
  keypad_eq : part ≠ .keypad → m'.keypad = m.keypad
  generator_eq : part ≠ .generator → m'.generator = m.generator
  awake : part = .keypad → m.keyWait = none

theorem Alike.refl (awake : part = .keypad → m.keyWait = none) : Alike part m m :=
  ⟨rfl, fun _ ↦ rfl, fun _ ↦ rfl, fun _ ↦ rfl, awake⟩

theorem Alike.symm (h : Alike part m m') : Alike part m' m where
  eq := by rw [h.eq]
  timers_eq := fun hpart ↦ (h.timers_eq hpart).symm
  keypad_eq := fun hpart ↦ (h.keypad_eq hpart).symm
  generator_eq := fun hpart ↦ (h.generator_eq hpart).symm
  awake := fun hpart ↦ by rw [h.eq]; exact h.awake hpart

theorem Alike.trans {m'' : Machine} (h : Alike part m m') (h' : Alike part m' m'') :
    Alike part m m'' where
  eq := by rw [h'.eq, h.eq]
  timers_eq := fun hpart ↦ (h'.timers_eq hpart).trans (h.timers_eq hpart)
  keypad_eq := fun hpart ↦ (h'.keypad_eq hpart).trans (h.keypad_eq hpart)
  generator_eq := fun hpart ↦ (h'.generator_eq hpart).trans (h.generator_eq hpart)
  awake := h.awake

/-! ### Instructions -/

/-- What two machines make of an instruction is alike: the same fault, or the same signal and machines
that are alike. -/
inductive AlikeResults (part : Part) :
    Except Fault (Signal × Machine) → Except Fault (Signal × Machine) → Prop where
  | error (fault : Fault) : AlikeResults part (.error fault) (.error fault)
  | ok (signal : Signal) {next next' : Machine} (h : Alike part next next') :
      AlikeResults part (.ok (signal, next)) (.ok (signal, next'))

theorem AlikeResults.eq_error {fault : Fault} {result' : Except Fault (Signal × Machine)}
    (h : AlikeResults part (.error fault) result') : result' = .error fault := by
  cases h
  rfl

theorem AlikeResults.exists_ok {signal : Signal} {next : Machine}
    {result' : Except Fault (Signal × Machine)} (h : AlikeResults part (.ok (signal, next)) result') :
    ∃ next', result' = .ok (signal, next') ∧ Alike part next next' := by
  cases h with
  | ok _ h => exact ⟨_, rfl, h⟩

theorem AlikeResults.map {α : Type} (r : Except Fault α) (signal : Signal) {f f' : α → Machine}
    (h : ∀ a, Alike part (f a) (f' a)) :
    AlikeResults part (r.map fun a ↦ (signal, f a)) (r.map fun a ↦ (signal, f' a)) := by
  cases r with
  | error fault => exact .error fault
  | ok a => exact .ok signal (h a)

theorem AlikeResults.map_map {α : Type} (r : Except Fault α) (signal : Signal)
    {f f' : α → Machine} (h : ∀ a, Alike part (f a) (f' a)) :
    AlikeResults part ((r.map f).map (signal, ·)) ((r.map f').map (signal, ·)) := by
  have hmap (f : α → Machine) : (r.map f).map (signal, ·) = r.map fun a ↦ (signal, f a) := by
    cases r <;> rfl
  rw [hmap, hmap]
  exact .map r signal h

/-- Whether a skip skips depends on the keypad at most. -/
theorem Alike.holds_eq (h : Alike part m m') {condition : Condition}
    (heedless : part.reads (.skip condition) = false) : condition.holds m' = condition.holds m := by
  rw [h.eq]
  cases condition with
  | keyHeld x | keyReleased x =>
    have hkeypad := h.keypad_eq (by rintro rfl; cases heedless)
    simp only [Condition.holds, hkeypad]
  | _ => rfl

/-- **An instruction that does not look at a part comes to the same, whatever the part is.** -/
theorem Alike.execute (h : Alike part m m') (heedless : part.reads op = false) :
    AlikeResults part (m.execute op) (m'.execute op) := by
  have holds_eq : ∀ condition : Condition, op = .skip condition →
      condition.holds m' = condition.holds m := fun _ hop ↦ h.holds_eq (hop ▸ heedless)
  obtain ⟨timers, keypad, generator, rfl⟩ :
      ∃ timers keypad generator, m' = { m with timers, keypad, generator } := ⟨_, _, _, h.eq⟩
  obtain ⟨-, htimers, hkeypad, hgenerator, awake⟩ := h
  cases op with
  -- These ask something of the machine first, and no part has a say in the answer.
  | ret => exact .map m.stack.pop _ fun _ ↦ ⟨rfl, htimers, hkeypad, hgenerator, awake⟩
  | call target =>
    exact .map (m.stack.push m.pc) _ fun _ ↦ ⟨rfl, htimers, hkeypad, hgenerator, awake⟩
  | draw x y n =>
    exact .map_map (m.memory.slice _ _) _ fun _ ↦ ⟨rfl, htimers, hkeypad, hgenerator, awake⟩
  | storeDecimal x | storeRegisters x =>
    exact .map_map (m.memory.write _ _) _ fun _ ↦ ⟨rfl, htimers, hkeypad, hgenerator, awake⟩
  | loadRegisters x =>
    exact .map_map (m.memory.slice _ _) _ fun _ ↦ ⟨rfl, htimers, hkeypad, hgenerator, awake⟩
  -- These look at a part, so it is not the one that may differ.
  | skip condition =>
    rw [Machine.execute, Machine.execute, holds_eq condition rfl]
    split <;> exact .ok _ ⟨rfl, htimers, hkeypad, hgenerator, awake⟩
  | readDelay x =>
    have hdelay : timers = m.timers := htimers (by rintro rfl; cases heedless)
    subst hdelay
    exact .ok _ ⟨rfl, htimers, hkeypad, hgenerator, awake⟩
  | random x mask =>
    have hstream : generator = m.generator := hgenerator (by rintro rfl; cases heedless)
    subst hstream
    exact .ok _ ⟨rfl, htimers, hkeypad, fun _ ↦ rfl, awake⟩
  | awaitKey x =>
    have hkeys : part ≠ .keypad := by rintro rfl; cases heedless
    obtain rfl : keypad = m.keypad := hkeypad hkeys
    exact .ok _ ⟨rfl, htimers, fun _ ↦ rfl, hgenerator, fun hpart ↦ absurd hpart hkeys⟩
  -- A timer is set to what a register holds, and the other timer stays.
  | setDelay x | setSound x =>
    exact .ok _ ⟨rfl, fun hpart ↦ by rw [← htimers hpart], hkeypad, hgenerator, awake⟩
  | clearScreen | jump target | jumpOffset base | setByte x nn | addByte x nn | arithmetic op x y
  | setIndex target | addIndex x | pointGlyph x =>
    exact .ok _ ⟨rfl, htimers, hkeypad, hgenerator, awake⟩

/-! ### Cycles -/

theorem Alike.stepOver (h : Alike part m m') : Alike part m.stepOver m'.stepOver where
  eq := by rw [h.eq]; rfl
  timers_eq := h.timers_eq
  keypad_eq := h.keypad_eq
  generator_eq := h.generator_eq
  awake := h.awake

theorem Alike.latch (h : Alike part m m') (fault : Fault) :
    Alike part { m with fault := some fault } { m' with fault := some fault } where
  eq := by rw [h.eq]
  timers_eq := h.timers_eq
  keypad_eq := h.keypad_eq
  generator_eq := h.generator_eq
  awake := h.awake

/-- A machine that waits for a key sees the same keypad as one that is alike. -/
theorem Alike.pollKey (h : Alike part m m') {x : Digit} (waiting : m.keyWait = some x) :
    (m'.pollKey x).1 = (m.pollKey x).1 ∧ Alike part (m.pollKey x).2 (m'.pollKey x).2 := by
  have hkeys : part ≠ .keypad := fun hpart ↦ by rw [h.awake hpart] at waiting; cases waiting
  have hkeypad := h.keypad_eq hkeys
  unfold Machine.pollKey
  rw [hkeypad]
  cases m.keypad.takePress with
  | none => exact ⟨rfl, h⟩
  | some press =>
    refine ⟨rfl, ?_, h.timers_eq, fun _ ↦ rfl, h.generator_eq, fun _ ↦ rfl⟩
    rw [h.eq]
    rfl

theorem Alike.executes (h : Alike part m m') (hop : m.Executes op) : m'.Executes op := by
  obtain ⟨running, awake, fits, reads⟩ := hop
  rw [h.eq]
  exact ⟨running, awake, fits, reads⟩

/-- **A cycle comes to the same on machines that are alike**, and leaves them alike, if its instruction
does not look at the part they may differ in. -/
theorem Alike.cycle (h : Alike part m m')
    (heedless : ∀ op, m.Executes op → part.reads op = false) :
    m'.cycle.outcome = m.cycle.outcome ∧ Alike part m.cycle.machine m'.cycle.machine := by
  have hfault : m'.fault = m.fault := by rw [h.eq]
  have hwait : m'.keyWait = m.keyWait := by rw [h.eq]
  have hpc : m'.pc = m.pc := by rw [h.eq]
  have hcurrent : m'.current = m.current := by rw [h.eq]; rfl
  cases m.beat with
  | halted halted result =>
    rw [result, cycle_of_fault (hfault.trans halted)]
    exact ⟨rfl, h⟩
  | polled running waiting result =>
    obtain ⟨hsignal, hnext⟩ := h.pollKey waiting
    rw [result, cycle_of_keyWait (hfault.trans running) (hwait.trans waiting)]
    exact ⟨congrArg Except.ok hsignal, hnext⟩
  | unfetched running awake hend result =>
    rw [result, cycle_of_not_fits (hfault.trans running) (hwait.trans awake) (hpc ▸ hend), hpc]
    exact ⟨rfl, h.latch _⟩
  | unread running awake fits reads result =>
    rw [result, cycle_of_decode?_eq_none (hfault.trans running) (hwait.trans awake) (hpc ▸ fits)
      (hcurrent ▸ reads), hcurrent]
    exact ⟨rfl, h.stepOver.latch _⟩
  | refused hop refusal result =>
    have hsame := h.stepOver.execute (heedless _ hop)
    rw [execute_eq_error_iff.2 refusal] at hsame
    rw [result, (h.executes hop).cycle_of_refusal (execute_eq_error_iff.1 hsame.eq_error)]
    exact ⟨rfl, h.stepOver.latch _⟩
  | done hop done result =>
    have hsame := h.stepOver.execute (heedless _ hop)
    rw [done] at hsame
    obtain ⟨next', hdone, hnext⟩ := hsame.exists_ok
    rw [result, (h.executes hop).cycle_of_execute hdone]
    exact ⟨rfl, hnext⟩

/-! ### Events -/

/-- Restarted machines differ in the place in the random stream at most. -/
theorem Alike.reset (h : Alike part m m') : Alike part m.reset m'.reset where
  eq := by rw [h.eq]; rfl
  timers_eq := fun _ ↦ rfl
  keypad_eq := fun _ ↦ rfl
  generator_eq := h.generator_eq
  awake := fun _ ↦ rfl

/-- An event that moves nothing but a part leaves the machine alike. -/
theorem alike_of_movedBy (awake : part = .keypad → m.keyWait = none) {event : Event}
    (moved : part.movedBy event = true) : Alike part m (m.apply event) := by
  match part, event, moved with
  | .timers, .tick, _ => exact ⟨rfl, nofun, fun _ ↦ rfl, fun _ ↦ rfl, nofun⟩
  | .keypad, .key k down, _ => exact ⟨rfl, fun _ ↦ rfl, nofun, fun _ ↦ rfl, awake⟩

/-- A load happens alike to machines that are alike. -/
theorem Alike.load (h : Alike part m m') (program : List UInt8) :
    Alike part (m.apply (.load program)) (m'.apply (.load program)) := by
  by_cases hfits : (Event.load program).restarts = true
  · obtain ⟨_, hload⟩ := (Event.restarts_load_iff m program).1 hfits
    obtain ⟨_, hload'⟩ := (Event.restarts_load_iff m' program).1 hfits
    rw [apply, apply, hload, hload']
    obtain ⟨memory, hmemory, rfl⟩ := map_eq_ok_iff.1 hload
    obtain ⟨memory', hmemory', rfl⟩ := map_eq_ok_iff.1 hload'
    obtain rfl : memory = memory' := Except.ok.inj (hmemory.symm.trans hmemory')
    have hreset := h.reset
    exact { hreset with eq := by rw [hreset.eq] }
  · rw [apply_load_of_not_restarts hfits, apply_load_of_not_restarts hfits]
    exact h

/-- **What happens to two machines that are alike happens alike**, unless it moves the part they may
differ in. -/
theorem Alike.apply (h : Alike part m m') {event : Event} (still : part.movedBy event = false)
    (heedless : ∀ op, Moment.Executes ⟨m, event⟩ op → part.reads op = false) :
    Moment.outcome? ⟨m', event⟩ = Moment.outcome? ⟨m, event⟩ ∧
      Alike part (m.apply event) (m'.apply event) := by
  cases event with
  | load program => exact ⟨rfl, h.load program⟩
  | reset => exact ⟨rfl, h.reset⟩
  | cycle =>
    obtain ⟨houtcome, hmachine⟩ := h.cycle fun op hop ↦ heedless op ⟨rfl, hop⟩
    exact ⟨congrArg some houtcome, hmachine⟩
  | tick =>
    have htimers := h.timers_eq (by rintro rfl; cases still)
    refine ⟨rfl, ?_, fun _ ↦ ?_, h.keypad_eq, h.generator_eq, h.awake⟩
    · rw [h.eq]
      rfl
    · show m'.timers.tick = m.timers.tick
      rw [htimers]
  | key k down =>
    have hkeypad := h.keypad_eq (by rintro rfl; cases still)
    refine ⟨rfl, ?_, h.timers_eq, fun _ ↦ ?_, h.generator_eq, h.awake⟩
    · rw [h.eq]
      rfl
    · show m'.keypad.set k down = m.keypad.set k down
      rw [hkeypad]

/-! ### Histories -/

theorem outcome?_of_movedBy {event : Event} (moved : part.movedBy event = true) :
    Moment.outcome? ⟨m, event⟩ = none := by
  match part, event, moved with
  | .timers, .tick, _ | .keypad, .key .., _ => rfl

/-- Events that move nothing but the part come to no outcome and leave the machine alike. -/
theorem Alike.run_moved (h : Alike part m m') {events : List Event}
    (moved : ∀ event ∈ events, part.movedBy event = true) :
    m'.outcomes events = [] ∧ Alike part m (m'.run events) := by
  induction events generalizing m' with
  | nil => exact ⟨rfl, h⟩
  | cons event events ih =>
    rw [List.forall_mem_cons] at moved
    obtain ⟨houtcomes, hmachine⟩ := ih (h.trans (alike_of_movedBy h.symm.awake moved.1)) moved.2
    refine ⟨?_, hmachine⟩
    rw [outcomes_cons, houtcomes, outcome?_of_movedBy moved.1]
    rfl

/-- **Two histories that agree but for what moves a part come to the same**, if nothing that is carried
out in one of them looks at that part. -/
theorem Alike.run (h : Alike part m m') {first second : List Event}
    (agree : part.others first = part.others second)
    (heedless : ∀ t ∈ m.moments first, ∀ op, t.Executes op → part.reads op = false) :
    m'.outcomes second = m.outcomes first ∧ Alike part (m.run first) (m'.run second) := by
  induction first generalizing m m' second with
  | nil =>
    refine h.run_moved fun event hevent ↦ ?_
    have hstill := List.filter_eq_nil_iff.1 agree.symm event hevent
    simpa using hstill
  | cons event first ih =>
    rw [moments_cons, List.forall_mem_cons] at heedless
    rcases moved : part.movedBy event with - | -
    · -- The second history comes to this event, too, after some that move nothing but the part.
      rw [Part.others, List.filter_cons_of_pos (by rw [moved]; rfl)] at agree
      obtain ⟨before, after, rfl, hbefore, -, hafter⟩ := List.filter_eq_cons_iff.1 agree.symm
      obtain ⟨hnone, hwaited⟩ := h.run_moved fun event hevent ↦ by simpa using hbefore event hevent
      obtain ⟨houtcome, hnext⟩ := hwaited.apply moved heedless.1
      obtain ⟨houtcomes, hmachine⟩ := ih hnext hafter.symm heedless.2
      rw [outcomes_append, hnone, outcomes_cons, houtcome, houtcomes, outcomes_cons, run_append]
      exact ⟨rfl, hmachine⟩
    · rw [Part.others, List.filter_cons_of_neg (by rw [moved]; exact nofun)] at agree
      obtain ⟨houtcomes, hmachine⟩ :=
        ih ((alike_of_movedBy h.awake moved).symm.trans h) agree heedless.2
      rw [outcomes_cons, outcome?_of_movedBy moved]
      exact ⟨houtcomes, hmachine⟩

/-- **Ticks and keys reach a program only through the instructions that ask for them.** From any machine
and for any two histories: if they agree but for the ticks, and no `FX07` is carried out in the first,
then their cycles come to the same and so do their machines, but for the timers; if they agree but for
the keys, the machine does not wait at the start and no `EX9E`, `EXA1` or `FX0A` is carried out in the
first, then their cycles come to the same and so do their machines, but for the keypad. -/
theorem run_unnoticed (m : Machine) (first second : List Event) :
    (Part.timers.others first = Part.timers.others second →
      (∀ t ∈ m.moments first, ∀ x, ¬ t.Executes (.readDelay x)) →
        m.outcomes second = m.outcomes first ∧
          ∃ timers, m.run second = { m.run first with timers }) ∧
      (Part.keypad.others first = Part.keypad.others second → m.keyWait = none →
        (∀ t ∈ m.moments first, ∀ x, ¬ t.Executes (.skip (.keyHeld x)) ∧
          ¬ t.Executes (.skip (.keyReleased x)) ∧ ¬ t.Executes (.awaitKey x)) →
        m.outcomes second = m.outcomes first ∧
          ∃ keypad, m.run second = { m.run first with keypad }) := by
  constructor
  · intro agree unread
    have heedless : ∀ t ∈ m.moments first, ∀ op, t.Executes op → Part.timers.reads op = false := by
      intro t ht op hop
      cases op with
      | readDelay x => exact absurd hop (unread t ht x)
      | _ => rfl
    have hsame : Alike .timers m m := Alike.refl nofun
    obtain ⟨houtcomes, hmachine⟩ := hsame.run agree heedless
    refine ⟨houtcomes, (m.run second).timers, ?_⟩
    rw [hmachine.eq, hmachine.keypad_eq nofun, hmachine.generator_eq nofun]
  · intro agree awake unread
    have heedless : ∀ t ∈ m.moments first, ∀ op, t.Executes op → Part.keypad.reads op = false := by
      intro t ht op hop
      cases op with
      | awaitKey x => exact absurd hop (unread t ht x).2.2
      | skip condition =>
        cases condition with
        | keyHeld x => exact absurd hop (unread t ht x).1
        | keyReleased x => exact absurd hop (unread t ht x).2.1
        | _ => rfl
      | _ => rfl
    have hsame : Alike .keypad m m := Alike.refl fun _ ↦ awake
    obtain ⟨houtcomes, hmachine⟩ := hsame.run agree heedless
    refine ⟨houtcomes, (m.run second).keypad, ?_⟩
    rw [hmachine.eq, hmachine.timers_eq nofun, hmachine.generator_eq nofun]

/-- A program sets the delay timer, draws a random byte and runs into a word that is no instruction.
With other ticks the timer ends up elsewhere, and with other keys the keypad does; the cycles and the
rest of the machine stay the same. -/
theorem ticks_and_keys_elsewhere :
    let m := (powerOn .usual (.ofSeed 0)).run [.load [0x60, 0x05, 0xF0, 0x15, 0xC1, 0xFF]]
    let first : List Event := [.cycle, .cycle, .tick, .cycle, .key 3 true, .cycle]
    let ticked : List Event := [.tick, .cycle, .cycle, .cycle, .key 3 true, .cycle]
    let keyed : List Event := [.key 7 true, .cycle, .cycle, .tick, .cycle, .key 7 false, .cycle]
    ((m.run first).timers.delay = 4 ∧ (m.run ticked).timers.delay = 5 ∧
        m.outcomes ticked = m.outcomes first ∧
          ∃ timers, m.run ticked = { m.run first with timers }) ∧
      ((m.run first).keypad.isHeld 3 ∧ ¬ (m.run keyed).keypad.isHeld 3 ∧
        m.outcomes keyed = m.outcomes first ∧
          ∃ keypad, m.run keyed = { m.run first with keypad }) := by
  refine ⟨⟨by decide, by decide, ?_⟩, by decide, by decide, ?_⟩
  · exact (run_unnoticed _ _ _).1 (by decide) (by decide)
  · exact (run_unnoticed _ _ _).2 (by decide) (by decide) (by decide)

end Machine

end ChipEight
