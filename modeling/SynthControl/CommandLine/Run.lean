import SynthControl.CommandLine.Arguments
import SynthControl.CommandLine.Performance
import SynthControl.Config.File

/-!
# The program

* `Outcome` — what the program prints and answers;
* `loadConfig` — the configuration of a task;
* `play`, `render`, `showConfig` — the commands that need a configuration;
* `runTask`, `run` — a task, and a command line.

A command line that cannot be read is answered with two, any other failure with one and no output.
-/

namespace SynthControl.CommandLine

/-- What the program prints and answers. -/
structure Outcome where
  /-- The answer; zero is success. -/
  status : Nat := 0
  output : String := ""
  deriving DecidableEq, Repr

/-- A failure, which has no output. -/
def Outcome.failed : Outcome := { status := 1 }

/-- A command line that cannot be read. -/
def Outcome.misused : Outcome := { status := 2 }

/-- Success with a line of output. -/
def Outcome.line (s : String) : Outcome := { output := s ++ "\n" }

/-- The name and the version of the program. -/
def versionLine : String := "rtperf 0.1.0"

/-- The table of operations as text. -/
def operationTable : String :=
  "\n".intercalate (Operation.listing ++ ["", "Lifecycle: start, stop, reset, pause, resume", ""])

/-- Sound in the channels and at the rate of a configuration. -/
def soundOf (c : Config) (samples : List Float32) : Wave.Sound :=
  .ofCounts c.engine.outputs c.engine.sampleRate samples

variable {m : Type → Type} [Monad m] [Files m]

/-- The configuration of a task: that of the given file, which must be usable, or else that of the usual
file or the defaults. -/
def loadConfig (home : String) : Option String → m (Except Error Config)
  | some path => Config.loadFrom path
  | none => do return .ok (← Config.loadOrDefault (Config.defaultPath home))

/-- Write a file; tells whether that was possible. -/
def saveSound (path : String) (s : Wave.Sound) : m Bool := Files.write path s.encode

/-- A realtime performance.  The file for its output is made before it begins, and is no sound file when the
output does not fill whole frames. -/
def play (c : Config) (duration frequency : Option Float) : Option String → m Outcome
  | none =>
    return if (capture c duration frequency).isSome then {} else .failed
  | some path => do
    if ← saveSound path (soundOf c []) then
      match capture c duration frequency with
      | none => return .failed
      | some samples =>
        let sound := soundOf c samples
        if (← saveSound path sound) && sound.isEven then return {} else return .failed
    else return .failed

/-- A render into a file, which is written when the render is complete. -/
def render (c : Config) (duration : Float) (frequency : Option Float) (path : String) : m Outcome := do
  match renderFile c duration frequency with
  | none => return .failed
  | some file => if ← Files.write path file then return {} else return .failed

/-- Print a configuration. -/
def showConfig (c : Config) : Outcome :=
  match c.text? with
  | some s => { output := s }
  | none => .failed

/-- Do something with the configuration of a task. -/
def withConfig (home : String) (path : Option String) (f : Config → m Outcome) : m Outcome := do
  match ← loadConfig home path with
  | .ok c => f c
  | .error _ => return .failed

/-- Carry out a task, for a user whose configurations are in the directory `home`. -/
def runTask (home : String) (t : Task) : m Outcome :=
  match t.action with
  | .play duration frequency output => withConfig home t.config fun c => play c duration frequency output
  | .render duration frequency output =>
    withConfig home t.config fun c => render c duration frequency output
  | .operations => return { output := operationTable }
  | .initFile => do
    match ← Config.createDefault home with
    | .ok path => return .line ("Created " ++ path)
    | .error _ => return .failed
  | .tellPath => return .line (Config.defaultPath home)
  | .showAll => withConfig home t.config fun c => return showConfig c

/-- What the program does without a task. -/
def halt : Halt → Outcome
  | .help l => { output := l.help }
  | .version => .line versionLine
  | .misuse => .misused

/-- Run the program with some arguments. -/
def run (home : String) (args : List String) : m Outcome :=
  match Task.ofArguments args with
  | .ok t => runTask home t
  | .error h => return halt h

end SynthControl.CommandLine
