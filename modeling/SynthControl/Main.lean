import SynthControl.CommandLine.Run

/-!
# The program on a real file system

* the instance of `Files` for real files;
* `configHome` — the directory for the configurations of a user;
* `main` — runs the program.
-/

namespace SynthControl

/-- Whether something could be done without a failure. -/
def succeeds (action : IO Unit) : IO Bool := do
  try
    action
    return true
  catch _ => return false

instance : Files IO where
  isThere path := succeeds do
    let _ ← IO.FS.realPath path
  read path := do
    try return some (← IO.FS.readBinFile path)
    catch _ => return none
  write path bytes := succeeds (IO.FS.writeBinFile path bytes)
  makeDirectories path := if path.isEmpty then return true else succeeds (IO.FS.createDirAll path)

/-- The directory for the configurations of a user. -/
def configHome : IO String := do
  match ← IO.getEnv "XDG_CONFIG_HOME" with
  | some directory => return directory
  | none => return Path.join ((← IO.getEnv "HOME").getD "") ".config"

end SynthControl

/-- Run the program. -/
def main (args : List String) : IO UInt32 := do
  let outcome ← SynthControl.CommandLine.run (← SynthControl.configHome) args
  IO.print outcome.output
  if outcome.status = 2 then IO.eprint SynthControl.CommandLine.Level.program.help
  return outcome.status.toUInt32
