import SynthControl.Config.Basic
import SynthControl.Toml.Document
import SynthControl.Toml.Printer

/-!
# Configurations as documents

A configuration is a document of four sections.  What a document leaves out has its default, and what a
configuration does not know is passed over.

* `Config.sections` — the sections of a configuration with their keys, in the order in which they are
  written;
* `Node.section?` — the keys of a section; an array lists the values in the order of the keys;
* `setting?` — the value of a key, or its default;
* `Config.ofDocument?` — the configuration that a document holds;
* `Config.text?`, `Config.ofText?` — the text of a configuration, and the configuration of a text;
* `Config.commentedDefaults` — the text for a user to start from.

Main statement: `ofDocument?_nil` (the empty document holds the defaults).
-/

namespace SynthControl

open Toml (Node Entries)

namespace Config

/-- The sections of a configuration with their keys, in the order in which they are written. -/
def sections (c : Config) : List (String × Entries) :=
  [("buffers",
      [("midi_capacity", .integer c.buffers.midiCapacity),
        ("max_channels", .integer c.buffers.maxChannels),
        ("max_hardware_buffer_size", .integer c.buffers.maxHardwareFrames)]),
    ("control",
      [("call_wait_timeout_ms", .integer c.control.callWait)]),
    ("engine",
      [("sample_rate", .integer c.engine.sampleRate),
        ("ksmps", .integer c.engine.blockFrames),
        ("nchnls", .integer c.engine.outputs),
        ("nchnls_i", .integer c.engine.inputs),
        ("hardware_buffer_size", .integer c.engine.hardwareFrames),
        ("software_buffer_size", .integer c.engine.softwareFrames),
        ("frequency", .float c.engine.frequency),
        ("amplitude", .float c.engine.amplitude)]),
    ("render",
      [("realtime_clock", .boolean c.render.realtimeClock)])]

/-- The keys of a section, in the order in which they are written. -/
def keysOf (name : String) : List String := (((sections {}).lookup name).getD []).map Prod.fst

/-- The text of a configuration, if every number in it can be written. -/
def text? (c : Config) : Option String := (Toml.write? c.sections).map String.ofList

/-! ### Reading -/

/-- The values that a node gives to the keys of a section.  A table has them by name, and an array has them
by position; a date or a time gives none. -/
def sectionOf? (keys : List String) : Node → Option Entries
  | .table _ es => some es
  | .array vs => some (keys.zip vs)
  | .tables ts => some (keys.zip (ts.map (.table .header)))
  | .moment _ => some []
  | _ => none

/-- The values of a section of a document; a missing section gives none. -/
def section? (document : Entries) (name : String) : Option Entries :=
  match document.lookup name with
  | none => some []
  | some v => sectionOf? (keysOf name) v

/-- The value of a key, or its default. -/
def setting? {α : Type} (read : Node → Option α) (es : Entries) (key : String) (default : α) :
    Option α :=
  match es.lookup key with
  | none => some default
  | some v => read v

/-- A count, which is not negative. -/
def count? : Node → Option Nat
  | .integer n => if 0 ≤ n then some n.toNat else none
  | _ => none

/-- An integer of 32 bits. -/
def word? : Node → Option Int
  | .integer n => if Decimal.isWord n then some n else none
  | _ => none

/-- A number; an integer counts as one. -/
def float? : Node → Option Float
  | .float x => some x
  | .integer n => some (.ofInt n)
  | _ => none

/-- A truth value. -/
def flag? : Node → Option Bool
  | .boolean b => some b
  | _ => none

/-- The section of the buffers. -/
def buffers? (es : Entries) : Option Buffers := do
  let d : Buffers := {}
  return { midiCapacity := ← setting? count? es "midi_capacity" d.midiCapacity
           maxChannels := ← setting? count? es "max_channels" d.maxChannels
           maxHardwareFrames := ← setting? count? es "max_hardware_buffer_size" d.maxHardwareFrames }

/-- The section of the control side. -/
def control? (es : Entries) : Option Control := do
  let d : Control := {}
  return { callWait := ← setting? count? es "call_wait_timeout_ms" d.callWait }

/-- The section of the engine. -/
def engine? (es : Entries) : Option Settings := do
  let d : Settings := {}
  return { sampleRate := ← setting? word? es "sample_rate" d.sampleRate
           blockFrames := ← setting? word? es "ksmps" d.blockFrames
           outputs := ← setting? word? es "nchnls" d.outputs
           inputs := ← setting? word? es "nchnls_i" d.inputs
           hardwareFrames := ← setting? word? es "hardware_buffer_size" d.hardwareFrames
           softwareFrames := ← setting? word? es "software_buffer_size" d.softwareFrames
           frequency := ← setting? float? es "frequency" d.frequency
           amplitude := ← setting? float? es "amplitude" d.amplitude }

/-- The section of the render device. -/
def rendering? (es : Entries) : Option Rendering := do
  let d : Rendering := {}
  return { realtimeClock := ← setting? flag? es "realtime_clock" d.realtimeClock }

/-- The configuration that a document holds, if its values are of the proper kinds. -/
def ofDocument? (document : Entries) : Option Config := do
  return { buffers := ← buffers? (← section? document "buffers")
           control := ← control? (← section? document "control")
           engine := ← engine? (← section? document "engine")
           render := ← rendering? (← section? document "render") }

/-- The empty document holds the defaults. -/
theorem ofDocument?_nil : ofDocument? [] = some {} := rfl

/-- The configuration that a text holds, if it is a document with values of the proper kinds. -/
def ofText? (s : String) : Option Config := (Toml.parse? s.toList).bind ofDocument?

/-! ### A text to start from -/

/-- The defaults with comments. -/
def commentedDefaults : String :=
  String.join ([
      "# rtperf configuration file",
      "",
      "[buffers]",
      "# MIDI ring capacity in events (3 integers each)",
      "midi_capacity = 1024",
      "",
      "# Upper bounds used to size the audio rings",
      "max_channels = 32",
      "max_hardware_buffer_size = 16384",
      "",
      "[control]",
      "# How long a control call waits for the render thread's cycle boundary",
      "# while a performance is live, before the call is dropped",
      "call_wait_timeout_ms = 1000",
      "",
      "[engine]",
      "sample_rate = 44100",
      "ksmps = 32",
      "nchnls = 2",
      "nchnls_i = 0",
      "hardware_buffer_size = 4096",
      "software_buffer_size = 256",
      "frequency = 440.0",
      "amplitude = 0.2",
      "",
      "[render]",
      "# Pace render cycles to wall-clock time",
      "realtime_clock = true"].map (· ++ "\n"))

end Config
end SynthControl
