import SynthControl.Session.Call

/-!
# Commands

The operations with arguments of their proper kinds, for callers who know which operation they want.

* `Command` — an operation with its arguments;
* `Command.operation`, `Command.arguments` — the operation, and the arguments as values;
* `Command.ofValues?` — the command with an operation's arguments, if they are of the proper kinds;
* `Session.execute` — a whole call of a command.

Main statement: `length_arguments` (a command never has a wrong number of arguments).
-/

namespace SynthControl

/-- An operation with its arguments. -/
inductive Command where
  /-- Compile a document with options, orchestra and score. -/
  | compileCsd (csd : String)
  | compileOrc (orc : String)
  | evalCode (code : String)
  | readScore (score : String)
  | inputMessage (message : String)
  | setOption (option : String)
  | getSr
  /-- Frames per block. -/
  | getKsmps
  | getNchnls
  | getNchnlsInput
  | getFullScale
  | getControlChannel (name : String)
  | setControlChannel (name : String) (value : Float)
  | getStringChannel (name : String)
  | setStringChannel (name value : String)
  | getScoreTime
  /-- Whether score events are performed. -/
  | isScorePending
  /-- Set whether score events are performed. -/
  | setScorePending (pending : Int)
  | rewindScore
  /-- The score time at which a performance starts. -/
  | getScoreOffset
  /-- Set the score time at which a performance starts. -/
  | setScoreOffset (offset : Float)
  /-- The length of a table. -/
  | tableLength (table : Int)
  | tableGet (table index : Int)
  | tableSet (table index : Int) (value : Float)
  | getVersion
  | getApiVersion
  | writeFile (path : String) (data : ByteArray)
  | readFile (path : String)
  | listFiles
  | listFileSizes
  /-- Remove a file, and all files below it. -/
  | removeFiles (path : String)

namespace Command

/-- The operation of a command. -/
def operation : Command → Operation
  | compileCsd _ => .compileCsd
  | compileOrc _ => .compileOrc
  | evalCode _ => .evalCode
  | readScore _ => .readScore
  | inputMessage _ => .inputMessage
  | setOption _ => .setOption
  | getSr => .getSr
  | getKsmps => .getKsmps
  | getNchnls => .getNchnls
  | getNchnlsInput => .getNchnlsInput
  | getFullScale => .getFullScale
  | getControlChannel _ => .getControlChannel
  | setControlChannel .. => .setControlChannel
  | getStringChannel _ => .getStringChannel
  | setStringChannel .. => .setStringChannel
  | getScoreTime => .getScoreTime
  | isScorePending => .isScorePending
  | setScorePending _ => .setScorePending
  | rewindScore => .rewindScore
  | getScoreOffset => .getScoreOffset
  | setScoreOffset _ => .setScoreOffset
  | tableLength _ => .tableLength
  | tableGet .. => .tableGet
  | tableSet .. => .tableSet
  | getVersion => .getVersion
  | getApiVersion => .getApiVersion
  | writeFile .. => .writeFile
  | readFile _ => .readFile
  | listFiles => .listFiles
  | listFileSizes => .listFileSizes
  | removeFiles _ => .removeFiles

/-- The arguments of a command as values. -/
def arguments : Command → List Value
  | compileCsd s | compileOrc s | evalCode s | readScore s | inputMessage s | setOption s
  | getControlChannel s | getStringChannel s | readFile s | removeFiles s => [.str s]
  | setControlChannel name x => [.str name, .float x]
  | setStringChannel name s => [.str name, .str s]
  | setScorePending n | tableLength n => [.int n]
  | setScoreOffset x => [.float x]
  | tableGet table index => [.int table, .int index]
  | tableSet table index x => [.int table, .int index, .float x]
  | writeFile path data => [.str path, .bytes data]
  | _ => []

/-- A command never has a wrong number of arguments. -/
theorem length_arguments (c : Command) : c.arguments.length = c.operation.arity := by
  cases c <;> rfl

/-- The command with an operation's arguments, if they are of the proper kinds; integers serve as
numbers. -/
def ofValues? (op : Operation) (args : List Value) : Option Command :=
  match op, args with
  | .compileCsd, [.str s] => some (compileCsd s)
  | .compileOrc, [.str s] => some (compileOrc s)
  | .evalCode, [.str s] => some (evalCode s)
  | .readScore, [.str s] => some (readScore s)
  | .inputMessage, [.str s] => some (inputMessage s)
  | .setOption, [.str s] => some (setOption s)
  | .getSr, [] => some getSr
  | .getKsmps, [] => some getKsmps
  | .getNchnls, [] => some getNchnls
  | .getNchnlsInput, [] => some getNchnlsInput
  | .getFullScale, [] => some getFullScale
  | .getControlChannel, [.str s] => some (getControlChannel s)
  | .setControlChannel, [.str s, v] => v.asFloat?.map (setControlChannel s)
  | .getStringChannel, [.str s] => some (getStringChannel s)
  | .setStringChannel, [.str s, .str t] => some (setStringChannel s t)
  | .getScoreTime, [] => some getScoreTime
  | .isScorePending, [] => some isScorePending
  | .setScorePending, [.int n] => some (setScorePending n)
  | .rewindScore, [] => some rewindScore
  | .getScoreOffset, [] => some getScoreOffset
  | .setScoreOffset, [v] => v.asFloat?.map setScoreOffset
  | .tableLength, [.int n] => some (tableLength n)
  | .tableGet, [.int n, .int i] => some (tableGet n i)
  | .tableSet, [.int n, .int i, v] => v.asFloat?.map (tableSet n i)
  | .getVersion, [] => some getVersion
  | .getApiVersion, [] => some getApiVersion
  | .writeFile, [.str s, .bytes b] => some (writeFile s b)
  | .readFile, [.str s] => some (readFile s)
  | .listFiles, [] => some listFiles
  | .listFileSizes, [] => some listFileSizes
  | .removeFiles, [.str s] => some (removeFiles s)
  | _, _ => none

end Command

/-- A whole call of a command. -/
def Session.execute {φ σ ω : Type} (E : Engine φ σ) (c : Command) :
    Session φ σ ω → Except Error (Option Value) × Session φ σ ω :=
  invoke E c.operation c.arguments

end SynthControl
