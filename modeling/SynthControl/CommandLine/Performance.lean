import SynthControl.Session.Command
import SynthControl.Session.Lifecycle
import SynthControl.Sine.Call
import SynthControl.Wave

/-!
# Performances from the command line

* `Recorder` — what is kept of a performance;
* `prepare` — options and control values before a start; what the engine says to an option is not looked at;
* `perform` — start, and wait for the end;
* `capture` — the output of a realtime performance;
* `renderFile` — the file that an offline render leaves in the engine.

`none` says that the performance failed.
-/

namespace SynthControl.CommandLine

/-- What is kept of a performance. -/
structure Recorder where
  ended : Bool := false
  /-- The blocks of output so far, the last one first. -/
  blocks : List (List Float) := []

/-- The output so far, in the precision of a sound file. -/
def Recorder.samples (r : Recorder) : List Float32 := r.blocks.reverse.flatten.map Float.toFloat32

/-- A session with the sine engine. -/
abbrev RecordingSession := Session Unit Sine Recorder

/-- Keep a block of output. -/
def Recorder.record (block : List Float) (_ : Nat) (r : Recorder) (io : Io) : Render.Called Recorder :=
  ⟨{ r with blocks := block :: r.blocks }, io, false⟩

/-- Notice the end of a performance. -/
def Recorder.notice : Listener Recorder := fun _ r => .done { r with ended := true }

/-- A device that keeps its output. -/
def recordingDevice (c : Config) : Render.Device Recorder :=
  Render.Device.create c.render.realtimeClock { sink := some Recorder.record }

/-- Open a session with the sine engine. -/
def openSession (c : Config) (device : Option (Render.Device Recorder)) : Option RecordingSession :=
  (Session.create Sine.engine () c device (fun _ r => .done r) {}).toOption

/-- Execute some commands; only an error is a failure. -/
def prepare : List Command → RecordingSession → Option RecordingSession
  | [], s => some s
  | c :: cs, s =>
    match s.execute Sine.engine c with
    | (.ok _, s) => prepare cs s
    | (.error _, _) => none

/-- Set the frequency of the oscillator, if one is given. -/
def setFrequency (frequency : Option Float) : List Command :=
  (frequency.map (.setControlChannel "freq" ·)).toList

/-- Set the length of the performance, if one is given. -/
def setDuration (duration : Option Float) : List Command :=
  (duration.map fun d => .setOption ("--duration=" ++ Decimal.text d)).toList

/-- The rounds that a performance may take. -/
def longestPerformance : Nat := Nat.pow 10 15

/-- Start, and wait until the end is announced. -/
def perform (ending : EventKind) (s : RecordingSession) : Option RecordingSession :=
  match (s.listen ending Recorder.notice).start Sine.engine with
  | (.ok 0, s) => some (s.await Sine.engine (fun s => s.world.ended) longestPerformance).2
  | _ => none

/-- The output of a realtime performance. -/
def capture (c : Config) (duration frequency : Option Float) : Option (List Float32) := do
  let s ← openSession c (some (recordingDevice c))
  let s ← prepare (setFrequency frequency ++ setDuration duration) s
  let s ← perform .realtimeEnded s
  return (s.close Sine.engine).world.samples

/-- The name of the rendered file in the engine. -/
def renderTarget : String := "render.wav"

/-- The file that an offline render leaves in the engine. -/
def renderFile (c : Config) (duration : Float) (frequency : Option Float) : Option ByteArray := do
  let s ← openSession c none
  let s ← prepare (.setOption ("-o" ++ renderTarget) :: setDuration (some duration)
    ++ setFrequency frequency) s
  let s ← perform .renderEnded s
  match (s.execute Sine.engine (.readFile renderTarget)).1 with
  | .ok (some (.bytes file)) => if Wave.isSound file then return file else none
  | _ => none

end SynthControl.CommandLine
