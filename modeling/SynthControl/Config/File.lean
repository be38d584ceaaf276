import SynthControl.Config.Document
import SynthControl.FileTree

/-!
# Configuration files

* `Config.ofBytes` — the configuration that a file holds;
* `Config.loadFrom`, `loadExisting`, `loadOrDefault` — reading a file, which may be missing;
* `Config.saveTo` — writing a file, with the directories it is in;
* `Config.defaultPath`, `createDefault` — the usual place, and a file for a user to start from.

A file that cannot be used is an error, and is never taken for a missing one; only who asks for the defaults
instead of an error gets them.
-/

namespace SynthControl.Config

/-- The configuration that a file holds. -/
def ofBytes (bytes : ByteArray) : Except Error Config :=
  match String.fromUTF8? bytes with
  | none => .error .io
  | some text =>
    match ofText? text with
    | none => .error .malformed
    | some c => c.validate.map fun _ => c

variable {m : Type → Type} [Monad m] [Files m]

/-- Read a configuration file. -/
def loadFrom (path : String) : m (Except Error Config) := do
  match ← Files.read path with
  | none => return .error .io
  | some bytes => return ofBytes bytes

/-- Read a configuration file that may be missing. -/
def loadExisting (path : String) : m (Except Error Config) := do
  if ← Files.isThere path then loadFrom path else return .error (.configNotFound path)

/-- Read a configuration file, or take the defaults if there is none that can be used. -/
def loadOrDefault (path : String) : m Config := do
  match ← loadExisting path with
  | .ok c => return c
  | .error _ => return {}

/-- Write a file, with the directories it is in. -/
def writeInto (path : String) (text : Except Error String) : m (Except Error Unit) := do
  if ← Files.makeDirectories (Path.parent path) then
    match text with
    | .error e => return .error e
    | .ok s => if ← Files.write path s.toUTF8 then return .ok () else return .error .io
  else return .error .io

/-- Write a configuration file, with the directories it is in. -/
def saveTo (c : Config) (path : String) : m (Except Error Unit) :=
  writeInto path (match c.text? with
    | some s => .ok s
    | none => .error .inexpressible)

/-- The usual place of the configuration file, in the directory for the configurations of a user. -/
def defaultPath (home : String) : String := Path.join (Path.join home "rtperf") "config.toml"

/-- Write the configuration file for a user to start from, and tell where it is. -/
def createDefault (home : String) : m (Except Error String) := do
  let path := defaultPath home
  return (← writeInto path (.ok commentedDefaults)).map fun _ => path

end SynthControl.Config
