import SynthControl.Engine
import SynthControl.Error

/-!
# Configurations

* `Buffers`, `Control`, `Rendering`, `Config` — the settings, with their defaults;
* `Buffers.ringSamples` — the size of the sample rings;
* `Fault`, `Config.fault?` — why a configuration cannot be used;
* `Config.validate` — the same as an error.

Main statements: `fault?_eq_none_iff` (what a usable configuration satisfies), `validate_eq_ok_iff`.
-/

namespace SynthControl

/-- How large the shared buffers are. -/
structure Buffers where
  midiCapacity : Nat := 1024
  /-- The most channels in one direction. -/
  maxChannels : Nat := 32
  /-- The most frames in a render cycle. -/
  maxHardwareFrames : Nat := 16384
  deriving DecidableEq, Repr

/-- The samples that each sample ring holds. -/
def Buffers.ringSamples (b : Buffers) : Nat := b.maxChannels * b.maxHardwareFrames

/-- How the control side behaves. -/
structure Control where
  /-- Milliseconds that a guarded call waits for the boundary of a cycle. -/
  callWait : Nat := 1000
  deriving DecidableEq, Repr

/-- How the render device behaves. -/
structure Rendering where
  /-- Cycles keep the pace of the clock on the wall. -/
  realtimeClock : Bool := true
  deriving DecidableEq, Repr

/-- A configuration. -/
structure Config where
  buffers : Buffers := {}
  control : Control := {}
  engine : Settings := {}
  render : Rendering := {}
  deriving Inhabited

namespace Config

/-- Why a configuration cannot be used. -/
inductive Fault where
  | noMidi
  | noSamples
  /-- A parameter of the engine is not positive. -/
  | notPositive
  /-- The engine has more channels than the buffers allow. -/
  | tooManyChannels (limit : Nat)
  /-- A render cycle has no frames, or more than the buffers allow. -/
  | badCycle (limit : Nat)
  deriving DecidableEq, Repr

/-- The text of a fault. -/
def Fault.message : Fault → String
  | noMidi => "buffers.midi_capacity must be > 0"
  | noSamples => "buffers.max_channels and buffers.max_hardware_buffer_size must be > 0"
  | notPositive => "engine sample_rate, ksmps and nchnls must be positive"
  | tooManyChannels limit =>
    "engine channel count exceeds buffers.max_channels (" ++ toString limit ++ ")"
  | badCycle limit => "engine.hardware_buffer_size must be in 1..=" ++ toString limit

/-- The first reason why a configuration cannot be used, if there is one. -/
def fault? (c : Config) : Option Fault :=
  let b := c.buffers
  let e := c.engine
  if b.midiCapacity = 0 then some .noMidi
  else if b.maxChannels = 0 ∨ b.maxHardwareFrames = 0 then some .noSamples
  else if e.sampleRate ≤ 0 ∨ e.blockFrames ≤ 0 ∨ e.outputs ≤ 0 ∨ e.inputs < 0 then some .notPositive
  else if b.maxChannels < e.outputs ∨ b.maxChannels < e.inputs then
    some (.tooManyChannels b.maxChannels)
  else if e.hardwareFrames ≤ 0 ∨ b.maxHardwareFrames < e.hardwareFrames then
    some (.badCycle b.maxHardwareFrames)
  else none

/-- A usable configuration has buffers for an engine with positive parameters. -/
theorem fault?_eq_none_iff {c : Config} : c.fault? = none ↔
    0 < c.buffers.midiCapacity ∧ 0 < c.buffers.maxChannels ∧ 0 < c.buffers.maxHardwareFrames
      ∧ 0 < c.engine.sampleRate ∧ 0 < c.engine.blockFrames
      ∧ 0 < c.engine.outputs ∧ c.engine.outputs ≤ c.buffers.maxChannels
      ∧ 0 ≤ c.engine.inputs ∧ c.engine.inputs ≤ c.buffers.maxChannels
      ∧ 0 < c.engine.hardwareFrames ∧ c.engine.hardwareFrames ≤ c.buffers.maxHardwareFrames := by
  simp only [fault?]
  repeat' split
  all_goals first
    | (simp only [reduceCtorEq, false_iff]; omega)
    | (simp only [true_iff]; omega)

/-- Refuse a configuration that cannot be used. -/
def validate (c : Config) : Except Error Unit :=
  match c.fault? with
  | some f => .error (.config f.message)
  | none => .ok ()

/-- What is not refused has no fault. -/
theorem validate_eq_ok_iff {c : Config} : c.validate = .ok () ↔ c.fault? = none := by
  rw [validate]
  cases c.fault? with
  | some f => exact iff_of_false nofun nofun
  | none => exact iff_of_true rfl rfl

end Config
end SynthControl
