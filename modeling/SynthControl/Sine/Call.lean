import SynthControl.Sine.Perform

/-!
# Operations of the sine engine

* `textArg`, `intArg`, `floatArg`, `bytesArg` — the arguments of a call, by position;
* `Action` — what is done to an engine step by step, up to a refusal;
* `carryOut` — the effect and the result of every operation;
* `call` — the call of an operation.
-/

namespace SynthControl.Sine

/-- The version of the engine. -/
def engineVersion : Int := 100

/-- The version of its interface. -/
def apiVersion : Int := 100

/-! ### Arguments -/

/-- The argument at a position that counts from zero, seen as one kind. -/
def argument {α : Type} (kind : ArgumentKind) (view : Value → Option α) (args : List Value)
    (i : Nat) : Except EngineError α :=
  match args[i]?.bind view with
  | some a => .ok a
  | none => .error (.argument (i + 1) kind)

/-- A text. -/
def textArg : List Value → Nat → Except EngineError String := argument .string Value.asText?

/-- An integer. -/
def intArg : List Value → Nat → Except EngineError Int := argument .integer Value.asInt?

/-- A number. -/
def floatArg : List Value → Nat → Except EngineError Float := argument .number Value.asFloat?

/-- A byte string. -/
def bytesArg : List Value → Nat → Except EngineError ByteArray := argument .bytes Value.asBytes?

/-! ### Tables, files and code -/

/-- The table of a number; there is only the waveform. -/
def table? (s : Sine) (number : Int) : Option (Array Float) :=
  if number = waveform then some s.wavetable else none

/-- The table of a number, or the refusal. -/
def table (s : Sine) (number : Int) : Except EngineError (Array Float) :=
  match s.table? number with
  | some t => .ok t
  | none => .error (.noTable number)

/-- The position that an integer names in a table, or the refusal. -/
def tableIndex (t : Array Float) (i : Int) : Except EngineError Nat :=
  if 0 ≤ i ∧ i.toNat < t.size then .ok i.toNat else .error (.indexOutOfRange i)

/-- A path without its trailing slashes, and one slash behind it: how everything below it begins. -/
def below (path : String) : List Char :=
  (path.toList.reverse.dropWhile (· == '/')).reverse ++ ['/']

/-- A name is the path itself or lies below it. -/
def isWithin (path name : String) : Bool :=
  name == path || (below path).isPrefixOf name.toList

/-- The file of a path, or the refusal. -/
def file (s : Sine) (path : String) : Except EngineError ByteArray :=
  match s.files.find? path with
  | some data => .ok data
  | none => .error (.noFile path)

/-- Remove a file, or everything below a path: the number of files that are gone. -/
def removeFiles (s : Sine) (path : String) : Value × Sine :=
  let files := s.files.eraseIf (isWithin path)
  (.int (s.files.size - files.size : Nat), { s with files := files })

/-- The number that a line of code evaluates to: a float, with `return` in front of it or not; anything
else is zero. -/
def evaluate (code : String) : Float :=
  let c := Text.trim code.toList
  let c := Text.trim ((Text.after? "return".toList c).getD c)
  (Decimal.readFloat? c).getD 0

/-! ### The operations -/

/-- Apply an option for a caller, who is told by a status; the reason of a refusal is printed. -/
def callSetOption (s : Sine) (option : String) : Value × Sine :=
  match s.setOption? option with
  | .ok s => (.int 0, s)
  | .error e => (.int (-1), s.print ("option '" ++ option ++ "' rejected: " ++ e.message))

/-- What is done to an engine step by step.  A refusal ends it, and what was done before the refusal stays. -/
abbrev Action (α : Type) : Type := ExceptT EngineError (StateM Sine) α

/-- Compile a document: its options are applied one after another, up to the first that is refused. -/
def compileDocument (document : String) : Action Value := fun s =>
  match s.compile document.toList with
  | (s, none) => (.ok (.int 0), s)
  | (s, some e) => (.error e, s)

/-- The effect and the result of an operation. -/
def carryOut (args : List Value) : Operation → Action Value
  | .compileCsd => do compileDocument (← textArg args 0)
  | .compileOrc => do
    let code ← textArg args 0
    if (Text.trim code.toList).isEmpty then return .int (-1)
    else
      modify fun s => { s with orchestra := s.orchestra ++ [code] }
      return .int 0
  | .evalCode => do return .float (evaluate (← textArg args 0))
  | .readScore | .inputMessage => do
    let score ← textArg args 0
    modify fun s => s.readScore score.toList
    return .int 0
  | .setOption => do
    let option ← textArg args 0
    modifyGet fun s => s.callSetOption option
  | .getSr => do return .float (.ofInt (← get).settings.sampleRate)
  | .getKsmps => do return .int (← get).settings.blockFrames
  | .getNchnls => do return .int (← get).settings.outputs
  | .getNchnlsInput => do return .int (← get).settings.inputs
  | .getFullScale => return .float 1
  | .getControlChannel => do
    let name ← textArg args 0
    return .float (((← get).controls.find? name).getD 0)
  | .setControlChannel => do
    let name ← textArg args 0
    let value ← floatArg args 1
    modify fun s => { s with controls := s.controls.insert name value }
    return .unit
  | .getStringChannel => do
    let name ← textArg args 0
    return .str (((← get).texts.find? name).getD "")
  | .setStringChannel => do
    let name ← textArg args 0
    let value ← textArg args 1
    modify fun s => { s with texts := s.texts.insert name value }
    return .unit
  | .getScoreTime => do return .float (← get).scoreTime
  | .isScorePending => do return .ofBool (← get).scorePending
  | .setScorePending => do
    let n ← intArg args 0
    modify fun s => { s with scorePending := n != 0 }
    return .unit
  | .rewindScore => do
    modify fun s => { s with framesDone := 0 }
    return .unit
  | .getScoreOffset => do return .float (← get).scoreOffset
  | .setScoreOffset => do
    let x ← floatArg args 0
    modify fun s => { s with scoreOffset := x }
    return .unit
  | .tableLength => do
    let number ← intArg args 0
    return .int ((((← get).table? number).map fun t => (t.size : Int)).getD (-1))
  | .tableGet => do
    let index ← intArg args 1
    let number ← intArg args 0
    let t ← (← get).table number
    let i ← tableIndex t index
    return .float (t.getD i 0)
  | .tableSet => do
    let number ← intArg args 0
    let index ← intArg args 1
    let value ← floatArg args 2
    let t ← (← get).table number
    let i ← tableIndex t index
    modify fun s => { s with wavetable := t.setIfInBounds i value }
    return .unit
  | .getVersion => return .int engineVersion
  | .getApiVersion => return .int apiVersion
  | .writeFile => do
    let path ← textArg args 0
    let data ← bytesArg args 1
    modify fun s => { s with files := s.files.insert path data }
    return .unit
  | .readFile => do
    let path ← textArg args 0
    return .bytes (← (← get).file path)
  | .listFiles => do return .list ((← get).files.names.map .str)
  | .listFileSizes => do return .list ((← get).files.entries.map fun e => .list [.str e.1, .int e.2.size])
  | .removeFiles => do
    let path ← textArg args 0
    modifyGet fun s => s.removeFiles path

/-- Execute an operation. -/
def call (op : Operation) (args : List Value) (s : Sine) : Attempt Value × Sine :=
  match (carryOut args op).run.run s with
  | (.ok v, s) => (.ok v, s)
  | (.error e, s) => (.failed e, s)

/-- The sine engine; its factory has no state. -/
def engine : Engine Unit Sine where
  build setup _ := (build? setup, ())
  start := start
  mode := Sine.mode
  perform := perform
  cleanup := cleanup
  reset := reset
  call := call
  drain := drain

end SynthControl.Sine
