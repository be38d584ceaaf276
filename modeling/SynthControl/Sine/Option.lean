import SynthControl.Decimal.Numeral
import SynthControl.Engine
import SynthControl.Text.Scan

/-!
# Engine options

Options in the style of a command line: `-r48000`, `--ksmps=16`, `-odac`, `--duration=2.5`.

* `Change` — what an accepted option asks for;
* `forms` — the options with a parameter: how they begin, and how the parameter is read;
* `Change.read` — the change that an option asks for, or why it is refused.

Of two forms that both fit, the one listed first counts.
-/

namespace SynthControl.Sine

/-- What an option asks for. -/
inductive Change where
  /-- A new value of a positive parameter. -/
  | quantity (what : Quantity) (n : Int)
  /-- A new number of input channels. -/
  | inputs (n : Int)
  | realtime
  | output (path : String)
  | audioInput
  | midi
  /-- End the score after so many seconds. -/
  | duration (seconds : Float)

/-- A positive number of 32 bits. -/
def readPositive (what : Quantity) (v : List Char) : Except OptionError Change :=
  match Decimal.readWord? v with
  | some n => if 0 < n then .ok (.quantity what n) else .error (.notPositive what (String.ofList v))
  | none => .error (.notPositive what (String.ofList v))

/-- A number of input channels. -/
def readInputs (v : List Char) : Except OptionError Change :=
  match Decimal.readWord? v with
  | some n => .ok (.inputs n)
  | none => .error (.badInputs (String.ofList v))

/-- The file of an offline render, whose name is not empty. -/
def readOutput (v : List Char) : Except OptionError Change :=
  if v.isEmpty then .error .emptyOutput else .ok (.output (String.ofList v))

/-- A number of seconds that is not below zero. -/
def readDuration (v : List Char) : Except OptionError Change :=
  match Decimal.readFloat? v with
  | none => .error (.badDuration (String.ofList v))
  | some x => if x < 0 then .error .negativeDuration else .ok (.duration x)

/-- How the option of a running performance that is still accepted begins. -/
def durationLead : List Char := "--duration=".toList

/-- An option of the form `lead` with a parameter behind it, or exactly `lead`. -/
inductive Form where
  | takes (lead : String) (read : List Char → Except OptionError Change)
  | plain (text : String) (change : Change)
  /-- Anything may follow, and is not looked at. -/
  | ignores (lead : String) (change : Change)

/-- What a form makes of an option that it fits. -/
def Form.read? (option : List Char) : Form → Option (Except OptionError Change)
  | takes lead read => (Text.after? lead.toList option).map read
  | plain text change => if option = text.toList then some (.ok change) else none
  | ignores lead change => (Text.after? lead.toList option).map fun _ => .ok change

/-- Every form of an option, in the order in which they are tried. -/
def forms : List Form :=
  [.takes "--sample-rate=" (readPositive .sampleRate),
    .takes "-r" (readPositive .sampleRate),
    .takes "--ksmps=" (readPositive .blockFrames),
    .takes "-k" (readPositive .blockFrames),
    .takes "--nchnls_i=" readInputs,
    .takes "--nchnls=" (readPositive .outputs),
    .takes "-B" (readPositive .hardwareFrames),
    .takes "-b" (readPositive .softwareFrames),
    .plain "-odac" .realtime,
    .takes "--output=" readOutput,
    .takes "-o" readOutput,
    .plain "-iadc" .audioInput,
    .ignores "-M" .midi,
    .takes "--duration=" readDuration]

/-- What an option without blanks around it asks for, or why it is refused. -/
def Change.read (option : List Char) : Except OptionError Change :=
  (forms.findSome? (Form.read? option)).getD (.error .unrecognised)

end SynthControl.Sine
