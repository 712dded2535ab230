import ChipEight.Command.Settings

/-!
# Reading the command line

Arguments are read from the left. The first thing that is wrong, or the first call for help, ends the
reading, but *when* something is found wrong takes some care:

* an option with `=` is settled at once;
* any other option, and the path, is **pending** until the next argument or the end, and only then found
  to lack a value, to be a repetition or to have a bad value;
* an argument that has no place at all is reported before anything that is still pending.

A value never starts with a hyphen unless it stands behind `=`, except that a hyphen alone is a value.
Behind `--` everything is a path.
-/

namespace ChipEight.Command

/-- What an argument looks like, as long as options may follow. -/
inductive Shape where
  /-- Two hyphens: the options are over. -/
  | endOfOptions
  /-- Two hyphens and a name, and perhaps a value behind `=`. -/
  | long (name : String) (value : Option String)
  /-- A hyphen and at least one letter, of which only the first is ever looked at. -/
  | short (letter : Char)
  /-- Anything else. -/
  | plain
  deriving DecidableEq, Repr

/-- The shape of an argument. -/
def Shape.ofText (text : String) : Shape :=
  match text.toList with
  | ['-', '-'] => endOfOptions
  | '-' :: '-' :: cs =>
    let name := String.ofList (cs.takeWhile (· != '='))
    match cs.dropWhile (· != '=') with
    | [] => long name none
    | _ :: value => long name (some (String.ofList value))
  | '-' :: letter :: _ => short letter
  | _ => plain

/-- Something that has been seen but not settled. -/
inductive Pending where
  | option (name : OptionName) (value : Option String)
  | path (text : String)
  deriving DecidableEq, Repr

/-- The values settled so far. -/
structure Draft where
  cpuHz : Option UInt32
  seed : Option UInt64
  frames : Option UInt32
  scale : Option UInt32
  path : Option String
  deriving DecidableEq, Repr

/-- Why reading ends early. -/
inductive Stop where
  | wrong (error : UsageError)
  | help
  | briefHelp
  deriving DecidableEq, Repr

namespace Draft

/-- Nothing is settled. -/
def empty : Draft := ⟨none, none, none, none, none⟩

variable (d : Draft)

/-- Whether an option has its value. -/
def has : OptionName → Bool
  | .cpuHz => d.cpuHz.isSome
  | .seed => d.seed.isSome
  | .headless => d.frames.isSome
  | .scale => d.scale.isSome

/-- Give an option its value. -/
def put (name : OptionName) (text : String) : Except String Draft :=
  match name with
  | .cpuHz => (readUInt32 text).map fun value ↦ { d with cpuHz := some value }
  | .seed => (readUInt64 text).map fun value ↦ { d with seed := some value }
  | .headless => (readUInt32 text).map fun value ↦ { d with frames := some value }
  | .scale => (readUInt32 text).map fun value ↦ { d with scale := some value }

/-- Settle what was pending. -/
def settle (d : Draft) : Pending → Except UsageError Draft
  | .option name none => .error (.missingValue name)
  | .option name (some text) =>
    if d.has name then .error (.repeatedOption name)
    else (d.put name text).mapError (.invalidValue name text)
  | .path text => if text = "" then .error .emptyPath else .ok { d with path := some text }

/-- The settings, once everything is settled. -/
def settings (d : Draft) : Except UsageError Settings :=
  match d.path with
  | none => .error .missingPath
  | some path =>
    .ok { cpuHz := d.cpuHz.getD 700, seed := d.seed, frames := d.frames, scale := d.scale.getD 10,
          path }

end Draft

/-- A command line read up to some place. -/
structure Reading where
  draft : Draft
  pending : Option Pending
  hasPath : Bool
  optionsOver : Bool
  deriving DecidableEq, Repr

namespace Reading

/-- Before the first argument. -/
def start : Reading := ⟨.empty, none, false, false⟩

variable (r : Reading)

/-- Settle what is pending, if anything is. -/
def settle : Except Stop Reading :=
  match r.pending with
  | none => .ok r
  | some pending =>
    match r.draft.settle pending with
    | .ok draft => .ok { r with draft, pending := none }
    | .error error => .error (.wrong error)

/-- Settle what is pending, and leave something else pending. -/
def defer (pending : Pending) : Except Stop Reading :=
  r.settle.map fun r ↦ { r with pending := some pending }

/-- Read an argument that is not an option: the value of the option before it, or the path. -/
def readPlain (text : String) : Except Stop Reading :=
  match r.pending, r.optionsOver with
  | some (.option name none), false => .ok { r with pending := some (.option name (some text)) }
  | _, _ =>
    if r.hasPath then .error (.wrong (.unexpectedArgument text))
    else { r with hasPath := true }.defer (.path text)

/-- Stop for help, if nothing pending is wrong. -/
def stopFor (stop : Stop) : Except Stop Reading :=
  match r.settle with
  | .ok _ => .error stop
  | .error earlier => .error earlier

/-- Read an option. -/
def readLong (name : String) (value : Option String) : Except Stop Reading :=
  match OptionName.ofLong? name, value with
  | some option, none => r.defer (.option option none)
  | some option, some text =>
    match r.defer (.option option (some text)) with
    | .ok r => r.settle
    | .error stop => .error stop
  | none, value =>
    if name = "help" then
      match value with
      | none => r.stopFor .help
      | some text => .error (.wrong (.unexpectedHelpValue text))
    else .error (.wrong (.unexpectedArgument ("--" ++ name)))

/-- Read one argument. -/
def readArgument (text : String) : Except Stop Reading :=
  if r.optionsOver then r.readPlain text
  else
    match Shape.ofText text with
    | .endOfOptions => .ok { r with optionsOver := true }
    | .long name value => r.readLong name value
    | .short letter =>
      if letter = 'h' then r.stopFor .briefHelp
      else .error (.wrong (.unexpectedArgument (String.ofList ['-', letter])))
    | .plain => r.readPlain text

end Reading

/-- Read a command line. -/
def readArguments (arguments : List String) : Except Stop Settings := do
  let reading ← arguments.foldlM Reading.readArgument .start
  let reading ← reading.settle
  reading.draft.settings.mapError .wrong

end ChipEight.Command
