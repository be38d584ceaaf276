import SynthControl.Catalog
import SynthControl.Decimal.Fixed
import SynthControl.Sine.Option
import SynthControl.Sine.Score
import SynthControl.Sine.Document
import SynthControl.Wave

/-!
# The sine engine

A single wavetable oscillator with just enough around it for every operation: options, channels, a
table, score time and a file system in memory.  Offline performances end as wave files in that file
system.

* `Sine` — the state of an engine; `Sine.fresh`, `Sine.build?` — a new one;
* `setOption?`, `readScore`, `compile` — what changes the setup and the score;
* `scoreTime`, `print` — the score time reached, and the lines printed.
-/

namespace SynthControl

/-- The state of a sine engine. -/
structure Sine where
  origin : Setup
  settings : Settings
  /-- The file that an offline performance is rendered into. -/
  output : Option String := none
  wantsInput : Bool
  wantsMidi : Bool := false
  /-- The end of the score in seconds; without one the performance goes on until it is stopped. -/
  duration : Option Float := none
  scorePending : Bool := true
  /-- The score time at which a performance starts. -/
  scoreOffset : Float := 0
  /-- Frames performed. -/
  framesDone : Nat := 0
  /-- The phase of the oscillator, in periods. -/
  phase : Float := 0
  orchestra : List String := []
  controls : Catalog Float := .empty
  texts : Catalog String := .empty
  /-- The table that the oscillator reads its waveform from. -/
  wavetable : Array Float
  files : Catalog ByteArray := .empty
  printed : List String := []
  /-- The output block, allocated by a start. -/
  block : Array Float := #[]
  /-- The input block, allocated by a start; empty without audio input. -/
  input : Array Float := #[]
  /-- What an offline performance has rendered. -/
  rendered : Array Float32 := #[]
  /-- Who drives the performance that was prepared last. -/
  mode : Mode := .realtime
  /-- Between a start and the cleanup, when the blocks have their sizes. -/
  performing : Bool := false

namespace Sine

/-- The number of the table that holds the waveform. -/
def waveform : Int := 1

/-- The samples in the waveform table. -/
def waveformSize : Nat := 1024

/-- The ratio of a circle's circumference to its radius. -/
def turn : Float := 6.283185307179586

/-- One period of a sine. -/
def sineTable : Array Float :=
  Array.ofFn fun i : Fin waveformSize => (i.val.toFloat / waveformSize.toFloat * turn).sin

/-- The engine that a setup describes, before its options. -/
def fresh (s : Setup) : Sine :=
  { origin := s, settings := s.settings, wantsInput := 0 < s.settings.inputs
    wavetable := sineTable }

/-- Print a line. -/
def print (s : Sine) (line : String) : Sine := { s with printed := s.printed ++ [line] }

/-! ### Options -/

/-- The settings with a positive parameter changed. -/
def setQuantity (t : Settings) (n : Int) : Quantity → Settings
  | .sampleRate => { t with sampleRate := n }
  | .blockFrames => { t with blockFrames := n }
  | .outputs => { t with outputs := n }
  | .hardwareFrames => { t with hardwareFrames := n }
  | .softwareFrames => { t with softwareFrames := n }

/-- The engine after an accepted option. -/
def apply (s : Sine) : Change → Sine
  | .quantity what n => { s with settings := setQuantity s.settings n what }
  | .inputs n => { s with settings := { s.settings with inputs := n }, wantsInput := 0 < n }
  | .realtime => { s with output := none }
  | .output path => { s with output := some path }
  | .audioInput =>
    { s with settings := { s.settings with inputs := max s.settings.inputs 1 }, wantsInput := true }
  | .midi => { s with wantsMidi := true }
  | .duration seconds => { s with duration := some seconds }

/-- What an option asks for in the engine's present state.  While a performance runs, only the end of
the score may be moved: everything else would change the blocks already allocated. -/
def readOption (s : Sine) (option : String) : Except OptionError Change :=
  let o := Text.trim option.toList
  if s.performing && !durationLead.isPrefixOf o then .error .performing else Change.read o

/-- Apply an option. -/
def setOption? (s : Sine) (option : String) : Except OptionError Sine :=
  (s.readOption option).map s.apply

/-- An option is accepted if a change is read from it, which is applied. -/
theorem setOption?_eq_ok_iff {s s' : Sine} {option : String} :
    s.setOption? option = .ok s' ↔ ∃ c, s.readOption option = .ok c ∧ s' = s.apply c := by
  rw [setOption?]
  cases s.readOption option with
  | error e => exact iff_of_false nofun nofun
  | ok c =>
    constructor
    · rintro ⟨⟩
      exact ⟨c, rfl, rfl⟩
    · rintro ⟨_, ⟨⟩, rfl⟩
      rfl

/-- Apply options in order, up to the first that is refused; the engine keeps what was applied. -/
def setOptions (s : Sine) : List String → Sine × Option (String × OptionError)
  | [] => (s, none)
  | o :: os =>
    match s.setOption? o with
    | .ok s' => s'.setOptions os
    | .error e => (s, some (o, e))

/-- The engine that a setup describes. -/
def build? (s : Setup) : Except EngineError Sine :=
  match (fresh s).setOptions s.options with
  | (e, none) => .ok e
  | (_, some (o, e)) => .error (.setupOption o e)

/-! ### Score and orchestra -/

/-- Read a score: its notes extend the end of the score. -/
def readScore (s : Sine) (score : List Char) : Sine :=
  let l := Length.read ⟨s.duration, 0⟩ (Text.lines score)
  { s with duration := l.stop, scorePending := true }.print
    ("read " ++ toString l.notes ++ " score events")

/-- Compile a document: its options, its orchestra, its score.  A refused option ends the compilation;
what was applied before it stays. -/
def compile (s : Sine) (document : List Char) : Sine × Option EngineError :=
  let options := ((section? document "CsOptions".toList).map Text.words).getD []
  match s.setOptions (options.map String.ofList) with
  | (s, some (o, e)) => (s, some (.documentOption o e))
  | (s, none) =>
    let s := match section? document "CsInstruments".toList with
      | some orchestra => { s with orchestra := s.orchestra ++ [String.ofList orchestra] }
      | none => s
    match section? document "CsScore".toList with
    | some score => (s.readScore score, none)
    | none => (s, none)

/-! ### Time -/

/-- The score time reached, in seconds. -/
def scoreTime (s : Sine) : Float :=
  s.scoreOffset + s.framesDone.toFloat / .ofInt s.settings.sampleRate

/-- The score is over. -/
def isOver (s : Sine) : Bool :=
  match s.duration with
  | some stop => s.scoreTime ≥ stop
  | none => false

/-- A score without an end is never over. -/
theorem isOver_of_endless {s : Sine} (h : s.duration = none) : s.isOver = false := by rw [isOver, h]

end Sine
end SynthControl
