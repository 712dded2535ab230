import ChipEight.Command.Session

/-!
# The command line

The doing around a session: read the file that the arguments name, write what the session says, and
end with its exit code. The environment variable `CHIP8_LOG` names the least severe level that is
logged; `info` if it names none. A run without a seed draws one.
-/

namespace ChipEight.Command

/-- The level of a given name. -/
def levelNamed? (name : String) : Option Level :=
  [Level.error, .warn, .info, .debug, .trace].find? fun level ↦ level.name.toLower == name.toLower

/-- Read a file, or say why it cannot be read. -/
def readProgram (path : String) : IO (Except String (List UInt8)) := do
  try
    let bytes ← IO.FS.readBinFile path
    return .ok bytes.toList
  catch
    | .noFileOrDirectory .. => return .error "No such file or directory (os error 2)"
    | error => return .error (toString error)

/-- Write what an outcome says. -/
def report (outcome : Outcome) : IO UInt32 := do
  IO.print outcome.output
  IO.eprint outcome.errors
  return outcome.exitCode.toUInt32

end ChipEight.Command

open ChipEight.Command in
/-- Run the program. -/
def main (arguments : List String) : IO UInt32 := do
  match readArguments arguments with
  | .error stop => report stop.outcome
  | .ok settings =>
    let level := ((← IO.getEnv "CHIP8_LOG").bind levelNamed?).getD .info
    let drawn ← IO.rand 0 0xFFFFFFFFFFFFFFFF
    let seed := settings.seed.getD (UInt64.ofNat drawn)
    let file ← readProgram settings.path
    report <| session { settings with seed := some seed } (some level) file
