import ChipEight.Command.Numeral
import ChipEight.Command.Terminal

/-!
# Options of the command line

Four options take a value, and one argument stands by itself, the path of the program to run.
-/

namespace ChipEight.Command

/-- An option that takes a value. -/
inductive OptionName where
  | cpuHz
  | seed
  | headless
  | scale
  deriving DecidableEq, Repr

namespace OptionName

/-- All options, in the order they are listed. -/
def all : List OptionName := [cpuHz, seed, headless, scale]

/-- What is written after the two hyphens. -/
def long : OptionName → String
  | cpuHz => "cpu-hz"
  | seed => "seed"
  | headless => "headless"
  | scale => "scale"

/-- What the value stands for. -/
def placeholder : OptionName → String
  | cpuHz => "CPU_HZ"
  | seed => "SEED"
  | headless => "FRAMES"
  | scale => "SCALE"

/-- An option as it is quoted in a message. -/
def usage (name : OptionName) : String := s!"--{name.long} <{name.placeholder}>"

/-- The option written in some way. -/
def ofLong? (text : String) : Option OptionName := all.find? fun name ↦ name.long == text

end OptionName

/-- What a command line asks for. -/
structure Settings where
  cpuHz : UInt32
  seed : Option UInt64
  /-- How many frames to run without a window; without a number, open one. -/
  frames : Option UInt32
  scale : UInt32
  path : String
  deriving DecidableEq, Repr

/-- What is wrong with a command line. -/
inductive UsageError where
  | missingPath
  | emptyPath
  | missingValue (name : OptionName)
  | repeatedOption (name : OptionName)
  | invalidValue (name : OptionName) (text reason : String)
  | unexpectedArgument (text : String)
  | unexpectedHelpValue (text : String)
  deriving DecidableEq, Repr

/-- What was typed, as it is quoted in a message. -/
def quoted (text : String) : String := "'" ++ Terminal.printable text ++ "'"

/-- What is said about a wrong command line. -/
def UsageError.message : UsageError → String
  | missingPath => "the following required arguments were not provided:"
  | emptyPath => "a value is required for '<ROM_PATH>' but none was supplied"
  | missingValue name => s!"a value is required for '{name.usage}' but none was supplied"
  | repeatedOption name => s!"the argument '{name.usage}' cannot be used multiple times"
  | invalidValue name text reason => s!"invalid value {quoted text} for '{name.usage}': {reason}"
  | unexpectedArgument text => s!"unexpected argument {quoted text} found"
  | unexpectedHelpValue text =>
    s!"unexpected value {quoted text} for '--help' found; no more were expected"

/-! ### Values -/

/-- A number of thirty-two bits. It is read as a wider one first, so that a numeral just out of range
can be quoted as the number it is. -/
def readUInt32 (text : String) : Except String UInt32 :=
  match Numeral.read .signed64 text with
  | .error mistake => .error mistake.message
  | .ok value =>
    if 0 ≤ value ∧ value < 0x100000000 then .ok (UInt32.ofNat value.toNat)
    else .error s!"{value} is not in 0..=4294967295"

/-- A number of sixty-four bits. -/
def readUInt64 (text : String) : Except String UInt64 :=
  match Numeral.read .unsigned64 text with
  | .error mistake => .error mistake.message
  | .ok value => .ok (UInt64.ofNat value.toNat)

end ChipEight.Command
