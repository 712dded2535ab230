import ChipEight.Proofs.Machine.Moments
import ChipEight.Proofs.Machine.Restart

/-!
# Machines that write a journal

`cycle` comes with the entries it adds to the journal, and those of a history are put one after the
other. A machine that is changed in place **writes** its journal while it works: an entry is made
between two assignments, and says what is so at that moment. Whether the program counter in it has
moved on, and whether the instruction in it has only been fetched, is a matter of where the entry is
made.

`Recording` is this way of running. Its procedures are those of `InPlace`, which report nothing
(`silently`), with a report wherever there is one: behind the fetch and before the program counter
moves on, behind a failure and before the fault is latched, behind a reset and behind the copying of
a program.

**Main statement**: `undergoAll_eq_runJournal`, what is written in the course of a history is `runJournal`.
It follows by induction over the history from what is written at a single event (`on_undergo`).
-/

namespace ChipEight

/-- A procedure on a machine that is changed in place and on the journal it writes. A failure keeps
what was written before, as it keeps what was assigned. -/
abbrev Recording := ExceptT Fault (StateM (Machine × List JournalEntry))

namespace Recording

variable {α β : Type}

/-- What comes of a procedure on a machine and its journal, and what they are afterwards. -/
def on (p : Recording α) (m : Machine) (journal : List JournalEntry) :
    Except Fault α × Machine × List JournalEntry :=
  Id.run (p.run.run (m, journal))

/-- Look at the machine. -/
def machine : Recording Machine := do return (← get).1

/-- Follow a procedure that reports nothing. -/
def silently (p : InPlace α) : Recording α :=
  ExceptT.mk (m := StateM (Machine × List JournalEntry)) fun (m, journal) ↦
    let (reply, next) := p.on m
    (reply, next, journal)

/-- Make an entry about the machine as it is. -/
def report (entry : Machine → JournalEntry) : Recording Unit :=
  modify fun (m, journal) ↦ (m, journal ++ [entry m])

/-! ### Cycles -/

/-- What a cycle of a machine that has not halted attempts. The word is reported when it has been
fetched, and then it is carried out. -/
def attempt : Recording Signal := do
  match (← machine).keyWait with
  | some x => silently (InPlace.pollKey x)
  | none =>
    let word ← silently (InPlace.look fun m ↦ m.memory.fetch m.pc.toNat)
    let reading := Opcode.decode? word
    report fun m ↦ .fetched m.pc word reading
    silently (InPlace.dispatch word reading)

/-- One cycle. A fault is reported, latched and passed on. -/
def cycle : Recording Signal := do
  if (← machine).fault.isSome then throw .halted
  try attempt
  catch fault =>
    report fun m ↦ .faulted m.pc fault
    silently (modify fun m ↦ { m with fault := some fault })
    throw fault

/-! ### What happens from outside -/

/-- Reset, and report it. -/
def reset : Recording Unit := do
  silently InPlace.reset
  report fun _ ↦ .reset

/-- Reset, copy a program and report it, unless it is too long. -/
def load (program : List UInt8) : Recording Unit := do
  if Memory.capacity < program.length then
    throw (.programTooLarge program.length Memory.capacity)
  reset
  silently (InPlace.loadProgram program)
  report fun _ ↦ .loaded program.length

/-- Let an event happen, and reply to whoever caused it. -/
def undergo : Event → Recording (Option Signal)
  | .load program => do
    load program
    return none
  | .reset => do
    reset
    return none
  | .cycle => do
    let signal ← cycle
    return some signal
  | .tick => do
    silently (modify Machine.tick)
    return none
  | .key k down => do
    silently (modify fun m ↦ m.setKey k down)
    return none

/-- Let the events of a history happen one after the other, and collect the replies. The journal goes
on from one to the next. -/
def undergoAll : Machine → List JournalEntry → List Event →
    List (Except Fault (Option Signal)) × Machine × List JournalEntry
  | m, journal, [] => ([], m, journal)
  | m, journal, event :: events =>
    let (reply, next, written) := (undergo event).on m journal
    let (replies, last) := undergoAll next written events
    (reply :: replies, last)

/-! ### Running -/

section Running

variable {m next : Machine} {journal written : List JournalEntry} {p : Recording α}

theorem on_bind (k : α → Recording β) :
    (p >>= k).on m journal = match p.on m journal with
      | (.ok a, next, written) => (k a).on next written
      | (.error fault, next, written) => (.error fault, next, written) := by
  rw [on, on, ExceptT.run_bind, StateT.run_bind, Id.run_bind]
  rcases Id.run (p.run.run (m, journal)) with ⟨_ | _, _, _⟩ <;> rfl

theorem on_tryCatch (k : Fault → Recording α) :
    (tryCatch p k).on m journal = match p.on m journal with
      | (.ok a, next, written) => (.ok a, next, written)
      | (.error fault, next, written) => (k fault).on next written := by
  rw [on, on, ExceptT.run_tryCatch, StateT.run_bind, Id.run_bind]
  rcases Id.run (p.run.run (m, journal)) with ⟨_ | _, _, _⟩ <;> rfl

theorem bind_of_ok {a : α} (h : p.on m journal = (.ok a, next, written)) (k : α → Recording β) :
    (p >>= k).on m journal = (k a).on next written := by
  rw [on_bind, h]

theorem bind_of_error {fault : Fault} (h : p.on m journal = (.error fault, next, written))
    (k : α → Recording β) : (p >>= k).on m journal = (.error fault, next, written) := by
  rw [on_bind, h]

/-- What a procedure replies may be turned into something else at the end. -/
theorem on_bind_pure {reply : Except Fault α} (h : p.on m journal = (reply, next, written))
    (f : α → β) : (p >>= fun a ↦ pure (f a)).on m journal = (reply.map f, next, written) := by
  rw [on_bind, h]
  cases reply <;> rfl

theorem machine_bind (k : Machine → Recording β) :
    (machine >>= k).on m journal = (k m).on m journal := rfl

theorem report_bind (entry : Machine → JournalEntry) (k : Unit → Recording β) :
    (report entry >>= k).on m journal = (k ⟨⟩).on m (journal ++ [entry m]) := rfl

theorem on_silently (q : InPlace α) :
    (silently q).on m journal = ((q.on m).1, (q.on m).2, journal) := rfl

/-- A procedure that reports nothing and comes to something leaves the journal to what follows. -/
theorem silently_bind {q : InPlace α} {a : α} (h : q.on m = (.ok a, next)) (k : α → Recording β) :
    (silently q >>= k).on m journal = (k a).on next journal :=
  bind_of_ok (by rw [on_silently, h]) k

theorem silently_bind_of_error {q : InPlace α} {fault : Fault} (h : q.on m = (.error fault, next))
    (k : α → Recording β) : (silently q >>= k).on m journal = (.error fault, next, journal) :=
  bind_of_error (by rw [on_silently, h]) k

end Running

/-! ### What is written -/

section Written

variable {m : Machine} {journal : List JournalEntry}

theorem on_attempt_of_keyWait {x : Digit} (waiting : m.keyWait = some x) :
    attempt.on m journal = (.ok (m.pollKey x).1, (m.pollKey x).2, journal) := by
  rw [attempt, machine_bind]
  simp only [waiting]
  rw [on_silently, InPlace.on_pollKey]

theorem on_attempt_of_not_fits (awake : m.keyWait = none) (h : ¬ m.pc.toNat + 2 ≤ Memory.size) :
    attempt.on m journal = (.error (.addressOutOfRange m.pc.toNat), m, journal) := by
  have hlook : (InPlace.look fun m ↦ m.memory.fetch m.pc.toNat).on m =
      (.error (.addressOutOfRange m.pc.toNat), m) := by
    rw [InPlace.on_look, Memory.fetch_eq_error_iff.2 ⟨h, rfl⟩]
    rfl
  rw [attempt, machine_bind]
  simp only [awake]
  rw [silently_bind_of_error hlook]

/-- A word that has been fetched is reported with the place it was fetched from, whatever becomes of
it. -/
theorem on_attempt_of_fits (awake : m.keyWait = none) (fits : m.pc.toNat + 2 ≤ Memory.size) :
    attempt.on m journal =
      let reading := Opcode.decode? m.current
      let (reply, next) := InPlace.leaving m.stepOver (m.dispatch m.current reading)
      (reply, next, journal ++ [.fetched m.pc m.current reading]) := by
  have hlook : (InPlace.look fun m ↦ m.memory.fetch m.pc.toNat).on m = (.ok m.current, m) := by
    rw [InPlace.on_look, Machine.fetch_current fits]
    rfl
  rw [attempt, machine_bind]
  simp only [awake]
  rw [silently_bind hlook, report_bind, on_silently, InPlace.on_dispatch]

theorem on_cycle_of_running (running : m.fault = none) :
    cycle.on m journal = match attempt.on m journal with
      | (.ok signal, next, written) => (.ok signal, next, written)
      | (.error fault, next, written) =>
        (.error fault, { next with fault := some fault }, written ++ [.faulted next.pc fault]) := by
  rw [cycle, machine_bind]
  simp only [running, Option.isSome_none, Bool.false_eq_true, if_false]
  rw [on_tryCatch]
  rcases attempt.on m journal with ⟨fault | signal, next, written⟩ <;> rfl

/-- **A cycle writes what it comes with**, whatever comes of it. -/
theorem on_cycle : cycle.on m journal =
    (m.cycle.outcome, m.cycle.machine, journal ++ m.cycle.journal) := by
  rcases running : m.fault with - | fault
  · rw [on_cycle_of_running running]
    rcases awake : m.keyWait with - | x
    · by_cases fits : m.pc.toNat + 2 ≤ Memory.size
      · rw [on_attempt_of_fits awake fits, Machine.cycle_of_awake running awake,
          Machine.fetchAndExecute, Machine.fetch_current fits]
        simp only
        rcases m.dispatch m.current (Opcode.decode? m.current) with fault | ⟨signal, next⟩
        · exact congrArg (fun journal ↦ (_, _, journal)) (List.append_assoc ..)
        · rfl
      · rw [on_attempt_of_not_fits awake fits, Machine.cycle_of_not_fits running awake fits]
        rfl
    · rw [on_attempt_of_keyWait awake, Machine.cycle_of_keyWait running awake, List.append_nil]
  · rw [cycle, machine_bind, Machine.cycle_of_fault running, List.append_nil]
    simp only [running, Option.isSome_some, if_true]
    rfl

theorem on_reset (hdepth : m.stack.depth = m.config.stackDepth) :
    reset.on m journal = (.ok ⟨⟩, m.reset, journal ++ [.reset]) := by
  rw [reset, silently_bind (InPlace.on_reset hdepth)]
  rfl

/-- **A load writes two entries if it is accepted and none if it is not.** -/
theorem on_load (hdepth : m.stack.depth = m.config.stackDepth) (program : List UInt8) :
    (load program).on m journal =
      let (reply, next) := InPlace.leaving m ((m.load program).map fun next ↦ (⟨⟩, next))
      (reply, next, journal ++ m.journal (.load program)) := by
  rw [Machine.journal]
  by_cases hfits : program.length ≤ Memory.capacity
  · have hload : (InPlace.loadProgram program).on m.reset = (.ok ⟨⟩,
        { m.reset with memory := Memory.powerOn.place Memory.programStart program }) := by
      rw [InPlace.on_loadProgram]
      show InPlace.leaving m.reset ((Memory.powerOn.load program).map _) = _
      rw [Memory.load_eq_ok_iff.2 ⟨hfits, rfl⟩]
      rfl
    rw [m.load_of_fits hfits, load]
    simp only [if_neg (Nat.not_lt.2 hfits)]
    show (reset >>= fun _ ↦ _).on m journal = _
    rw [bind_of_ok (on_reset hdepth), silently_bind hload]
    exact congrArg (fun journal ↦ (_, _, journal)) (List.append_assoc ..)
  · rw [m.load_of_not_fits hfits, load]
    simp only [if_pos (Nat.lt_of_not_le hfits), List.append_nil]
    rfl

/-- **Whatever happens to a machine writes the journal that the event has**, if its call stack has the
depth of its configuration. -/
theorem on_undergo (hdepth : m.stack.depth = m.config.stackDepth) (event : Event) :
    (undergo event).on m journal = (m.reply event, m.apply event, journal ++ m.journal event) := by
  cases event with
  | load program =>
    rw [undergo, on_bind_pure (on_load hdepth program) fun _ ↦ none, Machine.reply, Machine.apply]
    cases m.load program <;> rfl
  | reset =>
    rw [undergo, bind_of_ok (on_reset hdepth)]
    rfl
  | cycle => exact on_bind_pure on_cycle some
  | tick | key =>
    rw [Machine.journal, List.append_nil]
    rfl

theorem undergoAll_of_sound {config : Config} {m : Machine} (h : Machine.Sound config m)
    (journal : List JournalEntry) (events : List Event) :
    undergoAll m journal events =
      ((m.moments events).map fun t ↦ t.machine.reply t.event, m.run events,
        journal ++ m.runJournal events) := by
  induction events generalizing m journal with
  | nil => rw [Machine.runJournal, List.append_nil]; rfl
  | cons event events ih =>
    rw [undergoAll, on_undergo h.depth_eq_config]
    simp only [ih (h.apply event), Machine.runJournal, List.append_assoc]
    rfl

/-- **A machine that writes its journal while it works writes the journal of its history**, from the
moment it is switched on. -/
theorem undergoAll_eq_runJournal (config : Config) (generator : Generator) (events : List Event) :
    undergoAll (.powerOn config generator) [] events =
      (((Machine.powerOn config generator).moments events).map fun t ↦ t.machine.reply t.event,
        (Machine.powerOn config generator).run events,
        (Machine.powerOn config generator).runJournal events) :=
  undergoAll_of_sound (Machine.sound_powerOn config generator) [] events

end Written

end Recording

end ChipEight
