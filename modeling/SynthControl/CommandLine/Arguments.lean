import SynthControl.CommandLine.Level
import SynthControl.Decimal.Numeral

/-!
# Reading a command line

The arguments are read from left to right, and the first that cannot be read, or that asks for help, decides.

* `Argument` — an argument by its dashes;
* `Given` — the values of the options on one level, each given once at most;
* `Frame` — what has been read on a level; a value that stands apart from its option is looked at only when
  the next option, or the end, comes;
* `Halt` — why reading ends without a task;
* `read` — every level of a command line;
* `Task`, `Task.ofArguments` — what a command line asks for.

An option for all levels that is given on several of them has the value of the innermost one.
-/

namespace SynthControl.CommandLine

/-- An argument by its dashes. -/
inductive Argument where
  | dashes
  /-- Two dashes and a name, and a value behind an equals sign. -/
  | long (name : List Char) (value : Option (List Char))
  | short (letter : Char) (rest : List Char)
  | plain

/-- An argument by its dashes. -/
def Argument.ofChars : List Char → Argument
  | ['-', '-'] => dashes
  | '-' :: '-' :: r =>
    long (r.takeWhile (· != '='))
      (match r.dropWhile (· != '=') with
        | _ :: v => some v
        | [] => none)
  | '-' :: c :: r => short c r
  | _ => plain

/-! ### One level -/

/-- The values of the options on a level. -/
structure Given where
  config : Option String := none
  /-- Seconds. -/
  duration : Option Float := none
  /-- Hertz. -/
  frequency : Option Float := none
  output : Option String := none

/-- The name of a file, which is not empty. -/
def readName? (v : List Char) : Option String := if v.isEmpty then none else some (String.ofList v)

/-- Set what has not been set. -/
def setOnce? {α : Type} (old : Option α) (new : Option α) : Option (Option α) :=
  match old, new with
  | none, some a => some (some a)
  | _, _ => none

/-- Give an option its value, if it has none and the value can be read. -/
def Given.give? (g : Given) (s : Setting) (v : List Char) : Option Given :=
  match s with
  | .config => (setOnce? g.config (readName? v)).map fun x => { g with config := x }
  | .duration => (setOnce? g.duration (Decimal.readFloat? v)).map fun x => { g with duration := x }
  | .frequency => (setOnce? g.frequency (Decimal.readFloat? v)).map fun x => { g with frequency := x }
  | .output => (setOnce? g.output (readName? v)).map fun x => { g with output := x }

/-- An option has a value. -/
def Given.has (g : Given) : Setting → Bool
  | .config => g.config.isSome
  | .duration => g.duration.isSome
  | .frequency => g.frequency.isSome
  | .output => g.output.isSome

/-- Why reading ends without a task. -/
inductive Halt where
  | help (level : Level)
  | version
  | misuse
  deriving DecidableEq, Repr

/-- What has been read on a level. -/
structure Frame where
  given : Given := {}
  /-- An option whose value stands apart from it, and that value once it has come. -/
  pending : Option (Setting × Option (List Char)) := none

namespace Frame

/-- The next argument is the value of an option. -/
def isWaiting (f : Frame) : Bool := f.pending matches some (_, none)

/-- Give an option its value. -/
def give (f : Frame) (s : Setting) (v : List Char) : Except Halt Frame :=
  match f.given.give? s v with
  | some g => .ok ⟨g, none⟩
  | none => .error .misuse

/-- Look at the value that stands apart. -/
def resolve (f : Frame) : Except Halt Frame :=
  match f.pending with
  | none => .ok f
  | some (s, some v) => f.give s v
  | some (_, none) => .error .misuse

/-- An option was found, perhaps with a value. -/
def take (f : Frame) (l : Level) (switch : Option Switch) (value : Option (List Char)) :
    Except Halt Frame :=
  match switch with
  | none => .error .misuse
  | some (.setting s) => do
    let f ← f.resolve
    match value with
    | some v => f.give s v
    | none => return { f with pending := some (s, none) }
  | some .help => do
    let _ ← f.resolve
    throw (if value.isSome then .misuse else .help l)
  | some .version => do
    let _ ← f.resolve
    throw (if value.isSome then .misuse else .version)

/-- An option by its short name.  Behind an option with a value the value may follow, with or without an
equals sign. -/
def takeShort (f : Frame) (l : Level) (letter : Char) (rest : List Char) : Except Halt Frame :=
  match l.short? letter, rest with
  | some (.setting s), '=' :: v => f.take l (some (.setting s)) (some v)
  | some (.setting s), c :: v => f.take l (some (.setting s)) (some (c :: v))
  | switch, _ => f.take l switch none

/-- The end of a level: everything that it needs must have been given. -/
def finish (f : Frame) (l : Level) : Except Halt Given := do
  let f ← f.resolve
  if l.commands.isEmpty && l.required.all f.given.has then return f.given else throw .misuse

end Frame

/-! ### Every level -/

/-- The level that help is asked for by the names of commands. -/
def helpLevel (l : Level) : List String → Halt
  | [] => .help l
  | name :: rest =>
    match l.commands.lookup name with
    | some l => helpLevel l rest
    | none => .misuse

/-- Read a command line from a level on: the options of this level and of those below it. -/
def read : List String → Level → Frame → Except Halt (List (Level × Given))
  | [], l, f => do return [(l, ← f.finish l)]
  | a :: rest, l, f =>
    match Argument.ofChars a.toList with
    | .dashes => do
      if !rest.isEmpty then throw .misuse
      return [(l, ← f.finish l)]
    | .long name value => do read rest l (← f.take l (l.long? (String.ofList name)) value)
    | .short letter more => do read rest l (← f.takeShort l letter more)
    | .plain =>
      if f.isWaiting then
        read rest l { f with pending := f.pending.map fun p => (p.1, some a.toList) }
      else
        match l.commands.lookup a with
        | some below => do
          let inner ← read rest below {}
          let f ← f.resolve
          return (l, f.given) :: inner
        | none =>
          if a = "help" ∧ !l.commands.isEmpty then .error (helpLevel l rest) else .error .misuse

/-! ### Tasks -/

/-- What is to be done. -/
inductive Action where
  | play (duration frequency : Option Float) (output : Option String)
  | render (duration : Float) (frequency : Option Float) (output : String)
  | operations
  /-- Write a configuration file to start from. -/
  | initFile
  /-- Tell where the configuration file is. -/
  | tellPath
  | showAll

/-- What a command line asks for, with the configuration file to use. -/
structure Task where
  /-- The configuration file, if it is not the usual one. -/
  config : Option String
  action : Action

/-- What is asked for on the innermost level. -/
def Action.ofLevel? (g : Given) : Level → Option Action
  | .play => some (play g.duration g.frequency g.output)
  | .render =>
    match g.duration, g.output with
    | some d, some o => some (render d g.frequency o)
    | _, _ => none
  | .operations => some operations
  | .initFile => some initFile
  | .tellPath => some tellPath
  | .showAll => some showAll
  | .program | .configuration => none

/-- What a command line asks for. -/
def Task.ofArguments (args : List String) : Except Halt Task := do
  let levels ← read args .program {}
  let config := levels.foldl (fun c p => p.2.config.or c) none
  match levels.getLast?.bind fun p => Action.ofLevel? p.2 p.1 with
  | some action => return ⟨config, action⟩
  | none => throw .misuse

end SynthControl.CommandLine
