import ChipEight.Command.Arguments
import ChipEight.Command.Help
import ChipEight.Machine.History
import ChipEight.Pacer

/-!
# A session

What the program does from its arguments to its exit, without the doing: given the command line and
what is in files, a session says what is printed and how it ends.

**Without a window** a session runs a number of frames of one sixtieth of a second and prints the
display. It fails with the first update that fails. **With a window** it gets no further than the
program being loaded, since there is no screen to open one on.
-/

namespace ChipEight.Command

/-- How a session ends. -/
structure Outcome where
  exitCode : Nat
  output : String
  errors : String
  deriving DecidableEq, Repr

/-- Why a session fails after its arguments have been read. -/
inductive Failure where
  /-- The program could not be read, for the reason given. -/
  | read (reason : String)
  | load (fault : Fault)
  | execution (fault : Fault)
  | noScreen
  deriving DecidableEq, Repr

/-- What is said about a failure, with its cause where there is one. -/
def Failure.message : Failure → String
  | read reason => caused "Failed to read ROM file" reason
  | load fault => caused "Failed to load ROM into CHIP-8 memory" fault.message
  | execution fault => caused "Chip8 execution error" fault.message
  | noScreen => "Error: Failed to create event loop"
where
  /-- A failure and its cause. -/
  caused (context cause : String) : String :=
    s!"Error: {context}\n\nCaused by:\n    {cause}\n"

/-- One line of the log: how severe it is, who wrote it and what it says. -/
structure LogLine where
  level : Level
  origin : String
  text : String
  deriving DecidableEq, Repr

namespace LogLine

/-- A line for an entry in the machine's journal. -/
def ofEntry (entry : JournalEntry) : LogLine := ⟨entry.level, "chip8_vm::emu::chip8", entry.text⟩

/-- A line as it is written. Levels are padded to five letters. -/
def render (line : LogLine) : String :=
  rightpad line.level.name 5 ' ' ++ s!" [{line.origin}] {line.text}\n"
where
  /-- Fill a text up on the right. -/
  rightpad (text : String) (width : Nat) (c : Char) : String :=
    text ++ String.ofList (List.replicate (width - text.length) c)

end LogLine

/-- What a session has come to after its arguments have been read. -/
structure Report where
  log : List LogLine
  result : Except Failure String

/-- Which entries of the journal go into the log. -/
abbrev Filter := JournalEntry → Bool

/-- The filter for the least severe level that is logged, if anything is. -/
def Filter.ofThreshold (threshold : Option Level) : Filter :=
  fun entry ↦ threshold.any entry.level.shownAt

/-- Log the entries that a filter lets through; the latest line comes first. -/
def Filter.log (keeps : Filter) (lines : List LogLine) (entries : List JournalEntry) :
    List LogLine :=
  entries.foldl (fun lines entry ↦ if keeps entry then .ofEntry entry :: lines else lines) lines

/-- Let frames pass until they are over or one of them fails, logging what is let through. -/
def passFrames (keeps : Filter) (s : Progress (List LogLine)) :
    (frames : Nat) → Progress (List LogLine)
  | 0 => s
  | frames + 1 =>
    match s.fault with
    | some _ => s
    | none =>
      let watch := fun lines (move : Move) ↦ keeps.log lines move.journal
      passFrames keeps (s.pacer.update watch s.seen Pacer.tickPeriod) frames

/-- Play a program that has been loaded. -/
def play (settings : Settings) (keeps : Filter) (m : Machine) : Report :=
  match settings.frames with
  | none => ⟨[], .error .noScreen⟩
  | some frames =>
    let s := passFrames keeps ⟨.new m, none, []⟩ frames.toNat
    { log := s.seen.reverse
      result :=
        match s.fault with
        | none => .ok s.pacer.machine.display.text
        | some fault => .error (.execution fault) }

/-- Load a program and play it. -/
def loadAndPlay (settings : Settings) (threshold : Option Level) (program : List UInt8) : Report :=
  let keeps := Filter.ofThreshold threshold
  let m := Machine.new { Config.usual with cpuHz := settings.cpuHz, seed := settings.seed }
  match m.load program with
  | .error fault => ⟨[], .error (.load fault)⟩
  | .ok loaded =>
    let loading := (keeps.log [] (m.journal (.load program))).reverse
    let announcement : LogLine :=
      ⟨.info, "chip8", s!"Loaded {settings.path} ({program.length} bytes)"⟩
    let announced := if threshold.any announcement.level.shownAt then [announcement] else []
    let report := play settings keeps loaded
    { report with log := loading ++ announced ++ report.log }

/-- The outcome of a report: the log, and then the display or what went wrong. -/
def Report.outcome (report : Report) : Outcome :=
  let log := String.join (report.log.map LogLine.render)
  match report.result with
  | .ok display => ⟨0, log ++ display, ""⟩
  | .error failure => ⟨1, log, failure.message⟩

/-- The outcome for a command line that asks for nothing to be played. -/
def Stop.outcome : Stop → Outcome
  | help => ⟨0, helpText, ""⟩
  | briefHelp => ⟨0, briefHelpText, ""⟩
  | wrong error => ⟨2, "", "error: " ++ firstLine error.message⟩
where
  /-- A text up to its first line break, which is a line feed with or without a carriage return. -/
  firstLine (text : String) : String :=
    let line := text.toList.takeWhile (· != '\n')
    if line.length < text.length ∧ line.getLast? = some '\r' then String.ofList line.dropLast
    else String.ofList line

/-- The whole session, once the file it asks for has been read or not. The threshold is the least
severe level that is logged. -/
def session (settings : Settings) (threshold : Option Level) (file : Except String (List UInt8)) :
    Outcome :=
  match file with
  | .error reason => Report.outcome ⟨[], .error (.read reason)⟩
  | .ok program => (loadAndPlay settings threshold program).outcome

end ChipEight.Command
