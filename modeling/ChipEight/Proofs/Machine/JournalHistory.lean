import Mathlib.Data.List.Basic
import ChipEight.Proofs.Machine.Assembly
import ChipEight.Proofs.Machine.FaultLatch
import ChipEight.Proofs.Machine.Recording

/-!
# What the journal tells

The journal of a history is read moment by moment, and what stands in it for a moment is told by the
machine **before** and **after** it and by nothing in between. A word is fetched by a cycle of a machine
that neither has halted nor waits, if there is a whole word under the program counter
(`Moment.fetched?`); its entry has the program counter and the memory of the machine before. A fault is
latched where there was none before and there is one after (`Moment.latched?`), and its entry has the
program counter of the machine after. Both can be of one moment, and then the fault stands directly
behind the word.

A machine that writes its journal while it works (`Recording`) has to make every entry at the right
place for that. Reports made a step too early or too late would tell of other machines.

**Main statement**: `run_powerOn_journal`. It rests on what a single cycle reports (`journal_cycle`).
-/

namespace ChipEight

namespace Moment

variable (t : Moment)

/-- The word that is fetched at a moment, if one is. -/
def fetched? : Option Word :=
  if t.event = .cycle ∧ t.machine.fault = none ∧ t.machine.keyWait = none ∧
      t.machine.pc.toNat + 2 ≤ Memory.size then
    some t.machine.current
  else none

/-- The fault that is latched at a moment, if one is. -/
def latched? : Option Fault := if t.machine.fault = none then t.after.fault else none

/-- The entry for the word that is fetched at a moment: where it was fetched, and how it reads. -/
def trace? : Option JournalEntry :=
  t.fetched?.map fun word ↦ .fetched t.machine.pc word (Opcode.decode? word)

/-- The entry for the fault that is latched at a moment: where the machine is left. -/
def warning? : Option JournalEntry := t.latched?.map fun fault ↦ .faulted t.after.pc fault

/-- The entries for a machine that starts again at a moment, with a program or without. -/
def restart : List JournalEntry :=
  match t.event with
  | .load program =>
    if program.length ≤ Memory.capacity then [.reset, .loaded program.length] else []
  | .reset => [.reset]
  | .cycle | .tick | .key .. => []

/-- What stands in the journal for a moment. -/
def entries : List JournalEntry := t.restart ++ t.trace?.toList ++ t.warning?.toList

/-- There is nothing to report at a moment: the machine does not start again, and if it makes a cycle,
it has halted or waits for a key. -/
def Quiet : Prop :=
  ¬ t.event.restarts ∧ (t.event = .cycle → t.machine.fault ≠ none ∨ t.machine.keyWait ≠ none)

variable {t}

/-! ### Single moments -/

theorem fetched?_eq_some_iff {word : Word} :
    t.fetched? = some word ↔ (t.event = .cycle ∧ t.machine.fault = none ∧ t.machine.keyWait = none ∧
      t.machine.pc.toNat + 2 ≤ Memory.size) ∧ t.machine.current = word := by
  rw [fetched?, Option.ite_none_right_eq_some, Option.some.injEq]

theorem trace?_of_not_cycle (h : t.event ≠ .cycle) : t.trace? = none := by
  rw [trace?, fetched?, if_neg fun hcycle ↦ h hcycle.1]
  rfl

/-- The word that is fetched has the byte under the program counter in front of the next one. -/
theorem toNat_of_fetched? {word : Word} (h : t.fetched? = some word) :
    word.toNat = 256 * (t.machine.memory.cell t.machine.pc.toNat).toNat +
      (t.machine.memory.cell (t.machine.pc.toNat + 1)).toNat := by
  obtain ⟨-, rfl⟩ := fetched?_eq_some_iff.1 h
  have hhigh := (t.machine.memory.cell t.machine.pc.toNat).toNat_lt
  have hlow := (t.machine.memory.cell (t.machine.pc.toNat + 1)).toNat_lt
  rw [Machine.current, Memory.word, UInt16.toNat_ofNat', Nat.mod_eq_of_lt (by omega)]

/-- A fault is latched by a machine that has none, and it is the one that its cycle fails with. -/
theorem latched?_eq : t.latched? = if t.machine.fault = none then t.failure? else none := by
  rw [latched?]
  split
  · rename_i running
    rw [Machine.fault_after, running, Option.none_or]
    split
    · obtain ⟨m, event⟩ := t
      cases event with
      | cycle => cases ‹Event.cycle.restarts = true›
      | load | reset | tick | key => rfl
    · rfl
  · rfl

/-- A fault is latched exactly by a cycle that fails where there was none, and it is the one that the
cycle fails with. -/
theorem latched?_eq_some_iff {fault : Fault} :
    t.latched? = some fault ↔
      t.event = .cycle ∧ t.machine.fault = none ∧ t.machine.reply t.event = .error fault := by
  rw [latched?_eq, Option.ite_none_right_eq_some]
  obtain ⟨m, event⟩ := t
  cases event with
  | cycle =>
    show m.fault = none ∧ m.cycle.failure? = some fault ↔
      Event.cycle = .cycle ∧ m.fault = none ∧ m.cycle.outcome.map some = .error fault
    rw [Cycle.failure?]
    cases m.cycle.outcome <;> simp [Except.map]
  | load | reset | tick | key =>
    exact ⟨fun h ↦ absurd h.2 (by simp [failure?]), fun h ↦ by cases h.1⟩

end Moment

namespace Machine

variable {m : Machine}

/-! ### Single cycles -/

theorem trace?_of_fits (running : m.fault = none) (awake : m.keyWait = none)
    (fits : m.pc.toNat + 2 ≤ Memory.size) :
    Moment.trace? ⟨m, .cycle⟩ = some (.fetched m.pc m.current (Opcode.decode? m.current)) := by
  rw [Moment.trace?, Moment.fetched?_eq_some_iff.2 ⟨⟨rfl, running, awake, fits⟩, rfl⟩]
  rfl

theorem trace?_of_not
    (h : ¬ (m.fault = none ∧ m.keyWait = none ∧ m.pc.toNat + 2 ≤ Memory.size)) :
    Moment.trace? ⟨m, .cycle⟩ = none := by
  rw [Moment.trace?, Moment.fetched?, if_neg fun hcycle ↦ h hcycle.2]
  rfl

/-- A cycle reports the fault that it fails with, if the machine had none before. -/
theorem warning?_cycle (running : m.fault = none) :
    Moment.warning? ⟨m, .cycle⟩ = m.cycle.failure?.map (.faulted m.cycle.machine.pc ·) := by
  rw [Moment.warning?, Moment.latched?_eq, if_pos running]
  rfl

/-- **What a cycle reports**: the word it fetches and the fault it latches, in this order. -/
theorem journal_cycle (m : Machine) :
    m.cycle.journal =
      (Moment.trace? ⟨m, .cycle⟩).toList ++ (Moment.warning? ⟨m, .cycle⟩).toList := by
  cases m.beat with
  | @halted fault halted result =>
    have hfault : m.fault ≠ none := by rw [halted]; exact Option.some_ne_none fault
    rw [trace?_of_not fun h ↦ hfault h.1, Moment.warning?, Moment.latched?, if_neg hfault, result]
    rfl
  | @polled x running waiting result =>
    have hwait : m.keyWait ≠ none := by rw [waiting]; exact Option.some_ne_none x
    rw [trace?_of_not fun h ↦ hwait h.2.1, warning?_cycle running, result]
    rfl
  | unfetched running awake h result =>
    rw [trace?_of_not fun hfetch ↦ h hfetch.2.2, warning?_cycle running, result]
    rfl
  | unread running awake fits reads result =>
    rw [trace?_of_fits running awake fits, reads, warning?_cycle running, result]
    rfl
  | refused hop _ result | done hop _ result =>
    rw [trace?_of_fits hop.running hop.awake hop.fits, hop.reads, warning?_cycle hop.running, result]
    rfl

end Machine

namespace Moment

variable {t : Moment}

/-! ### What stands in the journal for a moment -/

/-- Only a cycle fetches a word or latches a fault. -/
theorem entries_of_not_cycle (h : t.event ≠ .cycle) : t.entries = t.restart := by
  have hlatched : t.latched? = none :=
    Option.eq_none_iff_forall_ne_some.2 fun fault hfault ↦ h (latched?_eq_some_iff.1 hfault).1
  rw [entries, trace?_of_not_cycle h, warning?, hlatched, Option.map_none, Option.toList_none,
    List.append_nil, List.append_nil]

theorem restart_of_load {program : List UInt8} {loaded : Machine} (hevent : t.event = .load program)
    (hload : t.machine.load program = .ok loaded) : t.restart = [.reset, .loaded program.length] := by
  have hrestarts := (Event.restarts_load_iff t.machine program).2 ⟨loaded, hload⟩
  have hfits : program.length ≤ Memory.capacity := of_decide_eq_true hrestarts
  rw [restart, hevent]
  exact if_pos hfits

theorem restart_eq_nil_iff : t.restart = [] ↔ ¬ t.event.restarts := by
  obtain ⟨m, event⟩ := t
  cases event with
  | load program =>
    by_cases hfits : program.length ≤ Memory.capacity <;> simp [restart, Event.restarts, hfits]
  | reset | cycle | tick | key => simp [restart, Event.restarts]

/-- **What an event adds to the journal is what stands in it for the moment.** -/
theorem journal_eq_entries (t : Moment) : t.machine.journal t.event = t.entries := by
  by_cases hcycle : t.event = .cycle
  · obtain ⟨m, event⟩ := t
    obtain rfl : event = .cycle := hcycle
    exact m.journal_cycle
  · rw [entries_of_not_cycle hcycle]
    obtain ⟨m, event⟩ := t
    cases event with
    | load program =>
      rw [Machine.journal, restart]
      by_cases hfits : program.length ≤ Memory.capacity
      · rw [m.load_of_fits hfits]
        exact (if_pos hfits).symm
      · rw [m.load_of_not_fits hfits]
        exact (if_neg hfits).symm
    | cycle => exact absurd rfl hcycle
    | reset | tick | key => rfl

/-- **A moment is quiet exactly if nothing stands in the journal for it.** -/
theorem entries_eq_nil_iff : t.entries = [] ↔ t.Quiet := by
  by_cases hcycle : t.event = .cycle
  · obtain ⟨m, event⟩ := t
    obtain rfl : event = .cycle := hcycle
    rw [← journal_eq_entries]
    show m.cycle.journal = [] ↔
      ¬ (false = true) ∧ (Event.cycle = .cycle → m.fault ≠ none ∨ m.keyWait ≠ none)
    cases m.beat with
    | halted halted result => simp [result, halted]
    | polled running waiting result => simp [result, waiting]
    | unfetched running awake _ result | unread running awake _ _ result =>
      simp [result, running, awake, Machine.halt]
    | refused hop _ result | done hop _ result =>
      simp [result, hop.running, hop.awake, Machine.halt]
  · rw [entries_of_not_cycle hcycle, restart_eq_nil_iff]
    exact (and_iff_left fun h ↦ absurd h hcycle).symm

/-! ### Entries by their level -/

theorem level_of_mem_restart {entry : JournalEntry} (h : entry ∈ t.restart) :
    entry.level = .debug := by
  rw [restart] at h
  split at h
  · split at h
    · obtain rfl | rfl : entry = .reset ∨ entry = .loaded _ := by simpa using h
      · rfl
      · rfl
    · cases h
  · obtain rfl := List.mem_singleton.1 h
    rfl
  · cases h
  · cases h
  · cases h

theorem level_of_trace? {entry : JournalEntry} (h : t.trace? = some entry) :
    entry.level = .trace := by
  obtain ⟨word, -, rfl⟩ := Option.map_eq_some_iff.1 h
  rfl

theorem level_of_warning? {entry : JournalEntry} (h : t.warning? = some entry) :
    entry.level = .warn := by
  obtain ⟨fault, -, rfl⟩ := Option.map_eq_some_iff.1 h
  rfl

/-- Entries of one level are all there are of it, and none of any other. -/
theorem filter_level {entries : List JournalEntry} {own : Level}
    (h : ∀ entry ∈ entries, entry.level = own) (level : Level) :
    entries.filter (·.level = level) = if level = own then entries else [] := by
  split
  · rename_i hlevel
    exact List.filter_eq_self.2 fun entry hentry ↦
      decide_eq_true ((h entry hentry).trans hlevel.symm)
  · rename_i hlevel
    exact List.filter_eq_nil_iff.2 fun entry hentry hkept ↦
      hlevel ((of_decide_eq_true hkept).symm.trans (h entry hentry))

/-- **The entries of a moment, sorted by their level.** -/
theorem filter_entries (t : Moment) (level : Level) :
    t.entries.filter (·.level = level) =
      ((if level = .debug then t.restart else []) ++
        if level = .trace then t.trace?.toList else []) ++
          if level = .warn then t.warning?.toList else [] := by
  rw [entries, List.filter_append, List.filter_append, filter_level fun _ ↦ level_of_mem_restart,
    filter_level fun _ h ↦ level_of_trace? (Option.mem_toList.1 h),
    filter_level fun _ h ↦ level_of_warning? (Option.mem_toList.1 h)]

end Moment

namespace Machine

variable {m : Machine}

/-! ### Histories -/

/-- **The journal of a history is what stands in it for its moments, one after the other.** -/
theorem runJournal_eq_flatMap (m : Machine) (events : List Event) :
    m.runJournal events = (m.moments events).flatMap Moment.entries := by
  induction events generalizing m with
  | nil => rfl
  | cons event events ih =>
    rw [runJournal, moments_cons, List.flatMap_cons, ih, Moment.journal_eq_entries ⟨m, event⟩]

/-- **If the entries of one level are at most one for each moment**, those in the journal of a history
are found by going through its moments. -/
theorem filter_runJournal {level : Level} {report? : Moment → Option JournalEntry}
    (h : ∀ t : Moment, t.entries.filter (·.level = level) = (report? t).toList) (m : Machine)
    (events : List Event) :
    (m.runJournal events).filter (·.level = level) = (m.moments events).filterMap report? := by
  rw [runJournal_eq_flatMap, List.filter_flatMap, List.filterMap_eq_flatMap_toList]
  exact congrArg (List.flatMap · (m.moments events)) (funext h)

/-- **The journal is a faithful trace.** A machine that is switched on and writes its journal while it
works writes what stands in it for the moments of its history, one after the other. So its traces are
the words that were fetched, in their order, each with the program counter before the cycle, the two
bytes that memory held there at that moment and the instruction whose word they are; and its warnings
are the faults that were latched, each with what the cycle replied and the program counter after it,
directly behind the trace of the same cycle if there is one. A program that is accepted is reported
behind the reset it begins with, and nothing is reported of one that is refused, of ticks and keys, and
of cycles of a machine that has halted or waits for a key. -/
theorem run_powerOn_journal (config : Config) (generator : Generator) (events : List Event) :
    let new := powerOn config generator
    let ts := new.moments events
    let journal := new.runJournal events
    (Recording.undergoAll new [] events =
        (ts.map fun t ↦ t.machine.reply t.event, new.run events, journal)) ∧
      journal = ts.flatMap (fun t ↦ t.restart ++ t.trace?.toList ++ t.warning?.toList) ∧
      journal.filter (·.level = .trace) = ts.filterMap Moment.trace? ∧
      journal.filter (·.level = .warn) = ts.filterMap Moment.warning? ∧
      ∀ t ∈ ts,
        (∀ word, t.fetched? = some word →
          word.toNat = 256 * (t.machine.memory.cell t.machine.pc.toNat).toNat +
              (t.machine.memory.cell (t.machine.pc.toNat + 1)).toNat ∧
            (Opcode.decode? word).elim word Opcode.encode = word) ∧
        (∀ fault, t.latched? = some fault ↔
          t.event = .cycle ∧ t.machine.fault = none ∧ t.machine.reply t.event = .error fault) ∧
        (∀ program loaded, t.event = .load program → t.machine.load program = .ok loaded →
          t.entries = [.reset, .loaded program.length]) ∧
        (t.entries = [] ↔ t.Quiet) := by
  intro new ts journal
  have htrace (t : Moment) : t.entries.filter (·.level = .trace) = t.trace?.toList := by
    simp [Moment.filter_entries]
  have hwarn (t : Moment) : t.entries.filter (·.level = .warn) = t.warning?.toList := by
    simp [Moment.filter_entries]
  refine ⟨Recording.undergoAll_eq_runJournal config generator events,
    runJournal_eq_flatMap new events, filter_runJournal htrace new events,
    filter_runJournal hwarn new events, fun t _ ↦ ⟨fun word hword ↦ ?_,
      fun fault ↦ Moment.latched?_eq_some_iff, fun program loaded hevent hload ↦ ?_,
      Moment.entries_eq_nil_iff⟩⟩
  · exact ⟨Moment.toNat_of_fetched? hword, Opcode.elim_decode? word⟩
  · have hcycle : t.event ≠ .cycle := by rw [hevent]; simp
    rw [Moment.entries_of_not_cycle hcycle, Moment.restart_of_load hevent hload]

/-- A program writes over its fourth instruction, which is fetched as it is by then and reads as none;
what comes after that is not reported until another program is loaded, which waits for a key. -/
theorem overwritten_word_reported :
    let new := powerOn .usual (.ofSeed 0)
    let writing : List Event :=
      [.load [0xA2, 0x06, 0x60, 0xFF, 0xF0, 0x55, 0x00, 0x00], .cycle, .cycle, .cycle]
    let failing : Moment := ⟨new.run writing, .cycle⟩
    let halted : List Event := [.cycle, .tick, .key 3 true]
    let loading : Moment := ⟨new.run (writing ++ .cycle :: halted), .load [0xF1, 0x0A]⟩
    let events := writing ++ .cycle :: halted ++ [.load [0xF1, 0x0A], .cycle, .cycle]
    new.runJournal events =
        [.reset, .loaded 8, .fetched 0x200 0xA206 (some (.setIndex 0x206)),
          .fetched 0x202 0x60FF (some (.setByte 0 0xFF)),
          .fetched 0x204 0xF055 (some (.storeRegisters 0)), .fetched 0x206 0xFF00 none,
          .faulted 0x208 (.invalidInstruction 0xFF00), .reset, .loaded 2,
          .fetched 0x200 0xF10A (some (.awaitKey 1))] ∧
      (Recording.undergoAll new [] events).2.2 = new.runJournal events ∧
        (new.moments events).filterMap Moment.warning? =
          [.faulted 0x208 (.invalidInstruction 0xFF00)] ∧
      (failing ∈ new.moments events ∧ failing.fetched? = some 0xFF00 ∧
        (0xFF00 : Word).toNat = 256 * (failing.machine.memory.cell failing.machine.pc.toNat).toNat +
          (failing.machine.memory.cell (failing.machine.pc.toNat + 1)).toNat) ∧
      (loading ∈ new.moments events ∧ (∃ loaded, loading.machine.load [0xF1, 0x0A] = .ok loaded) ∧
        loading.entries = [.reset, .loaded 2]) := by
  intro new writing failing halted loading events
  have hjournal : new.runJournal events =
      [.reset, .loaded 8, .fetched 0x200 0xA206 (some (.setIndex 0x206)),
        .fetched 0x202 0x60FF (some (.setByte 0 0xFF)),
        .fetched 0x204 0xF055 (some (.storeRegisters 0)), .fetched 0x206 0xFF00 none,
        .faulted 0x208 (.invalidInstruction 0xFF00), .reset, .loaded 2,
        .fetched 0x200 0xF10A (some (.awaitKey 1))] := by
    decide
  have hfailing : failing ∈ new.moments events := moment_mem_moments new writing .cycle _
  have hfetched : failing.fetched? = some 0xFF00 := by decide
  have hloading : loading ∈ new.moments events :=
    moment_mem_moments new (writing ++ .cycle :: halted) (.load [0xF1, 0x0A]) [.cycle, .cycle]
  have hfits : ([0xF1, 0x0A] : List UInt8).length ≤ Memory.capacity := by decide
  have hload := loading.machine.load_of_fits hfits
  obtain ⟨hwritten, -, -, hwarnings, hmoments⟩ := run_powerOn_journal .usual (.ofSeed 0) events
  obtain ⟨hword, -⟩ := hmoments failing hfailing
  obtain ⟨-, -, hentries, -⟩ := hmoments loading hloading
  refine ⟨hjournal, by rw [hwritten], ?_, ⟨hfailing, hfetched, (hword _ hfetched).1⟩,
    ⟨hloading, ⟨_, hload⟩, hentries _ _ rfl hload⟩⟩
  rw [← hwarnings, hjournal]
  rfl

end Machine

end ChipEight
