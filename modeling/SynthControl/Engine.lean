import SynthControl.Memory
import SynthControl.Operation
import SynthControl.Value

/-!
# Engines

What a synthesis engine provides to the worker that hosts it.

* `Settings`, `Setup` — what an engine starts from, and the options applied before anything else;
* `Mode`, `BlockEnd` — who drives a performance, and what a block says about its end;
* `EngineError` and its `message` — why an engine refuses;
* `Attempt` — what a call of an engine comes to: a result, an error, or a crash;
* `Engine` — the methods, over any type of engine states and any state of the factory.
-/

namespace SynthControl

/-- The parameters of an engine. -/
structure Settings where
  /-- Frames per second. -/
  sampleRate : Int := 44100
  /-- Frames per block. -/
  blockFrames : Int := 32
  outputs : Int := 2
  inputs : Int := 0
  /-- Frames per render cycle. -/
  hardwareFrames : Int := 4096
  /-- Frames kept ahead of the render loop. -/
  softwareFrames : Int := 256
  /-- Oscillator frequency in hertz. -/
  frequency : Float := 440
  amplitude : Float := 0.2
  deriving Inhabited

/-- What an engine is built from. -/
structure Setup where
  /-- The parameters that it starts from. -/
  settings : Settings := {}
  /-- Options, applied in order. -/
  options : List String := []
  deriving Inhabited

/-- Who drives a performance. -/
inductive Mode where
  | realtime
  /-- Nobody: blocks follow one another as fast as possible. -/
  | offline
  deriving DecidableEq, Repr

/-- What a block says about the end of the performance. -/
inductive BlockEnd where
  | more
  /-- The score is exhausted; no block was made. -/
  | finished
  deriving DecidableEq, Repr

/-! ### Errors -/

/-- A parameter that an option sets to a positive number. -/
inductive Quantity where
  | sampleRate | blockFrames | outputs | hardwareFrames | softwareFrames
  deriving DecidableEq, Repr

/-- The name of a parameter in an error. -/
def Quantity.words : Quantity → String
  | sampleRate => "sample rate"
  | blockFrames => "ksmps"
  | outputs => "channel count"
  | hardwareFrames => "hardware buffer size"
  | softwareFrames => "software buffer size"

/-- Why an option is refused. -/
inductive OptionError where
  /-- The parameter is no positive number. -/
  | notPositive (what : Quantity) (text : String)
  /-- The input channel count is no number. -/
  | badInputs (text : String)
  | emptyOutput
  /-- The duration is no number. -/
  | badDuration (text : String)
  /-- The duration is below zero. -/
  | negativeDuration
  | unrecognised
  /-- The option would change the blocks of a running performance. -/
  | performing
  deriving DecidableEq, Repr

/-- The text of the refusal of an option. -/
def OptionError.message : OptionError → String
  | notPositive what text => "bad " ++ what.words ++ " '" ++ text ++ "'"
  | badInputs text => "bad input channel count '" ++ text ++ "'"
  | emptyOutput => "empty output path"
  | badDuration text => "bad duration '" ++ text ++ "'"
  | negativeDuration => "negative duration"
  | unrecognised => "unrecognised option"
  | performing => "cannot change during a performance"

/-- What an argument has to be. -/
inductive ArgumentKind where
  | string | integer | number | bytes
  deriving DecidableEq, Repr

/-- The words for what an argument has to be. -/
def ArgumentKind.words : ArgumentKind → String
  | string => "a string"
  | integer => "an integer"
  | number => "a number"
  | bytes => "bytes"

/-- Why an engine, or the worker that hosts it, refuses a call. -/
inductive EngineError where
  | option (e : OptionError)
  /-- An option of the setup was refused. -/
  | setupOption (option : String) (e : OptionError)
  /-- An option in a document was refused. -/
  | documentOption (option : String) (e : OptionError)
  /-- An argument is missing or of another kind; positions count from one. -/
  | argument (position : Nat) (kind : ArgumentKind)
  /-- There is no table of this number. -/
  | noTable (number : Int)
  | indexOutOfRange (index : Int)
  | noFile (path : String)
  /-- The rendered frames do not fill whole frames of the output file. -/
  | unevenFrames
  /-- No engine of this number is hosted. -/
  | unknownInstance (number : Int)
  /-- The engine of this number could not be built. -/
  | instanceGone (number : Int)
  /-- Any other reason, in the engine's words. -/
  | other (text : String)
  deriving DecidableEq, Repr

/-- The text of an error, with its context in front. -/
def EngineError.message : EngineError → String
  | option e => e.message
  | setupOption o e => "Invalid engine option '" ++ o ++ "': " ++ e.message
  | documentOption o e => "Invalid option '" ++ o ++ "' in CsOptions: " ++ e.message
  | argument position kind => "argument " ++ toString position ++ " must be " ++ kind.words
  | noTable n => "table " ++ toString n ++ " does not exist"
  | indexOutOfRange i => "index " ++ toString i ++ " out of range"
  | noFile path => "no such file: " ++ path
  | unevenFrames =>
    "Failed to write render output: The number of samples written is not a multiple of the number of "
      ++ "channels."
  | unknownInstance n => "unknown engine instance " ++ toString n
  | instanceGone n => "engine instance " ++ toString n ++ " is gone"
  | other text => text

/-! ### The methods -/

/-- What a call comes to. -/
inductive Attempt (α : Type) where
  | ok (a : α)
  | failed (e : EngineError)
  /-- The thread that runs the engine is gone. -/
  | crashed

/-- The methods of engines with states `σ`, built by a factory with state `φ`. -/
structure Engine (φ σ : Type) where
  build : Setup → φ → Except EngineError σ × φ
  /-- Prepare a performance and publish its parameters; a status other than zero refuses it. -/
  start : Io → σ → Attempt Int × σ × Io
  /-- Who drives the performance that was prepared last. -/
  mode : σ → Mode
  perform : Io → σ → Attempt BlockEnd × σ × Io
  cleanup : Io → σ → Attempt Unit × σ × Io
  /-- Return to the state after building; gives a status. -/
  reset : σ → Attempt Int × σ
  /-- Execute an operation, whose argument count was checked. -/
  call : Operation → List Value → σ → Attempt Value × σ
  /-- Take the lines printed since the last time. -/
  drain : σ → List String × σ

end SynthControl
