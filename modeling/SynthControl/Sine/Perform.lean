import SynthControl.Sine.State

/-!
# Performing with the sine engine

* `Oscillator` — the phase and the block that is being filled; `Oscillator.frame`, `Oscillator.frames`
  — one frame and several;
* `start`, `perform`, `cleanup`, `reset` — a performance from its start to its end.

Main statements: `size_frames` (filling a block keeps its size), `frames_add` (a run of frames is a run
of its first part and a run of the rest), `start_left` (what a start leaves in region and rings).
-/

namespace SynthControl

/-- The whole number next to a float in the direction of zero. -/
def truncated (x : Float) : Float := if x < 0 then x.ceil else x.floor

/-- The part of a float behind the point. -/
def fractional (x : Float) : Float := x - truncated x

namespace Sine

/-! ### The oscillator -/

/-- What the oscillator goes by while it fills a block. -/
structure Tone where
  /-- The waveform, one period. -/
  table : Array Float
  amplitude : Float
  increment : Float
  /-- Samples per frame. -/
  channels : Nat
  /-- Added to the output, sample by sample. -/
  input : Array Float

/-- The control channel that sets the frequency. -/
def frequencyChannel : String := "freq"

/-- The control channel that sets the amplitude. -/
def amplitudeChannel : String := "amp"

/-- The tone of an engine: the control channels override the settings. -/
def tone (s : Sine) : Tone :=
  let frequency := (s.controls.find? frequencyChannel).getD s.settings.frequency
  { table := s.wavetable
    amplitude := (s.controls.find? amplitudeChannel).getD s.settings.amplitude
    increment := frequency / .ofInt s.settings.sampleRate
    channels := s.settings.outputs.toNat
    input := s.input }

/-- The entry of a table at a phase; a phase outside of a period takes the nearest end. -/
def Tone.entry (t : Tone) (phase : Float) : Float :=
  let i := (phase * t.table.size.toFloat).toUInt64.toNat
  t.table.getD (min i (t.table.size - 1)) 0

/-- The oscillator while it fills a block. -/
structure Oscillator where
  /-- The phase, in periods. -/
  phase : Float
  block : Array Float

/-- Write one frame and go on by the increment.  A sample without a place in the block is left out. -/
def Oscillator.frame (t : Tone) (o : Oscillator) (frame : Nat) : Oscillator :=
  let sample := t.entry o.phase * t.amplitude
  let put (block : Array Float) (channel : Nat) : Array Float :=
    let i := frame * t.channels + channel
    block.setIfInBounds i (sample + t.input.getD i 0)
  { phase := fractional (o.phase + t.increment)
    block := (List.range t.channels).foldl put o.block }

/-- Write the frames `start`, …, `start + n - 1`. -/
def Oscillator.frames (t : Tone) : Nat → Nat → Oscillator → Oscillator
  | 0, _, o => o
  | n + 1, start, o => frames t n (start + 1) (o.frame t start)

/-- A run of frames is a run of its first part and then a run of the rest. -/
theorem Oscillator.frames_add (t : Tone) (a b start : Nat) (o : Oscillator) :
    frames t (a + b) start o = frames t b (start + a) (frames t a start o) := by
  induction a generalizing start o with
  | zero => simp [frames]
  | succ a ih =>
    rw [Nat.add_right_comm, frames, frames, ih, Nat.add_assoc, Nat.add_comm 1 a]

theorem size_foldl_setIfInBounds (f : Nat → Nat) (g : Nat → Float) (cs : List Nat)
    (block : Array Float) :
    (cs.foldl (fun b c => b.setIfInBounds (f c) (g c)) block).size = block.size := by
  induction cs generalizing block with
  | nil => rfl
  | cons c cs ih => simp [ih]

/-- A frame keeps the size of the block. -/
theorem Oscillator.size_frame (t : Tone) (o : Oscillator) (frame : Nat) :
    (o.frame t frame).block.size = o.block.size :=
  size_foldl_setIfInBounds _ _ _ _

/-- Filling a block keeps its size. -/
theorem Oscillator.size_frames (t : Tone) (n start : Nat) (o : Oscillator) :
    (frames t n start o).block.size = o.block.size := by
  induction n generalizing start o with
  | zero => rfl
  | succ n ih => rw [frames, ih, size_frame]

/-! ### A performance -/

/-- A truth value as a word of the region. -/
def flag (b : Bool) : Int := if b then 1 else 0

/-- Publish the parameters of a performance in a region. -/
def publish (s : Sine) (r : Region) : Region :=
  let t := s.settings
  let r := ((r.set .sampleRate t.sampleRate).set .blockFrames t.blockFrames).set .outputs t.outputs
  let r := ((r.set .inputs t.inputs).set .hardwareFrames t.hardwareFrames).set .softwareFrames
    t.softwareFrames
  (r.set .wantsMidi (flag s.wantsMidi)).set .wantsInput (flag s.wantsInput)

/-- The samples in a block.  The product is one of words of 32 bits; if it comes out negative, it counts as a word of
64 bits without a sign, which no ring can hold. -/
def blockSamples (s : Sine) : Nat :=
  (wrapped (s.settings.blockFrames * s.settings.outputs) % UInt64.size).toNat

/-- The samples in a block, if a word has room for the product. -/
theorem blockSamples_eq_toNat {s : Sine} (hlow : 0 ≤ s.settings.blockFrames * s.settings.outputs)
    (hhigh : s.settings.blockFrames * s.settings.outputs < 2147483648) :
    s.blockSamples = (s.settings.blockFrames * s.settings.outputs).toNat := by
  have hsize : (UInt64.size : Int) = 18446744073709551616 := rfl
  rw [blockSamples, wrapped_eq (by omega) hhigh, Int.emod_eq_of_lt hlow (by omega)]

/-- The name of a mode. -/
def modeName : Mode → String
  | .realtime => "realtime"
  | .offline => "offline"

/-- The line printed at a start. -/
def startLine (mode : Mode) (t : Settings) : String :=
  "starting " ++ modeName mode ++ " performance: sr " ++ toString t.sampleRate ++ ", ksmps "
    ++ toString t.blockFrames ++ ", nchnls " ++ toString t.outputs

/-- Prepare a performance: publish its parameters, and refuse it with status minus one if a block does
not fit the output ring. -/
def start (io : Io) (s : Sine) : Attempt Int × Sine × Io :=
  let io := { io with region := s.publish io.region }
  let samples := s.blockSamples
  let capacity := io.bank.audio.output.capacity
  if capacity < samples then
    (.ok (-1), s.print ("block of " ++ toString samples ++ " samples does not fit the output ring ("
      ++ toString capacity ++ ")"), io)
  else
    let mode : Mode := if s.output.isSome then .offline else .realtime
    let s := { s with
      block := Array.replicate samples 0
      input := if s.wantsInput then Array.replicate samples 0 else #[]
      mode := mode
      framesDone := 0
      rendered := #[]
      performing := true }
    (.ok 0, s.print (startLine mode s.settings), io)

/-- Whether a start is accepted or not, the parameters are published and nothing else is changed. -/
theorem start_left {io left : Io} {s e : Sine} {r : Attempt Int} (h : s.start io = (r, e, left)) :
    left = { io with region := s.publish io.region } ∧ r ≠ .crashed := by
  rw [start] at h
  dsimp only at h
  split at h <;> cases h <;> exact ⟨rfl, by simp⟩

/-- Fill the input block from the input ring, with silence behind what there is. -/
def takeInput (io : Io) (s : Sine) : Sine × Io :=
  let (taken, ring) := io.bank.audio.input.read s.input.size
  let padded := taken ++ List.replicate (s.input.size - taken.length) 0
  ({ s with input := padded.toArray },
    { io with bank.audio.input := ring })

/-- Produce a block, unless the score is over. -/
def perform (io : Io) (s : Sine) : Attempt BlockEnd × Sine × Io :=
  if s.isOver then (.ok .finished, s, io)
  else
    let frames := s.settings.blockFrames.toNat
    let (s, io) :=
      if s.mode = .realtime ∧ s.input.size ≠ 0 then s.takeInput io else (s, io)
    let o := Oscillator.frames s.tone frames 0 ⟨s.phase, s.block⟩
    let s := { s with phase := o.phase, block := o.block, framesDone := s.framesDone + frames }
    match s.mode with
    | .realtime =>
      (.ok .more, s, { io with bank.audio.output := io.bank.audio.output.write o.block.toList })
    | .offline => (.ok .more, { s with rendered := s.rendered ++ o.block.map Float.toFloat32 }, io)

/-- What an offline performance rendered, as sound. -/
def sound (s : Sine) : Wave.Sound :=
  .ofCounts s.settings.outputs s.settings.sampleRate s.rendered.toList

/-- Write what was rendered into the file system. -/
def save (s : Sine) : Except EngineError Sine :=
  match s.output with
  | none => .ok s
  | some path =>
    if s.sound.isEven then
      let frames := s.rendered.size / (max s.settings.outputs 1).toNat
      .ok ({ s with files := s.files.insert path s.sound.encode, rendered := #[] }.print
        ("wrote " ++ toString frames ++ " frames to " ++ path))
    else .error .unevenFrames

/-- The line printed at the end of a performance. -/
def endLine (s : Sine) : String :=
  "performance ended at " ++ Decimal.fixed 3 s.scoreTime ++ "s"

/-- End a performance; an offline one is written into the file system. -/
def cleanup (io : Io) (s : Sine) : Attempt Unit × Sine × Io :=
  let s := { s with performing := false }
  match if s.mode = .offline then s.save else .ok s with
  | .ok s => (.ok (), s.print s.endLine, io)
  | .error e => (.failed e, s, io)

/-- Return to the state after building; only the files are kept. -/
def reset (s : Sine) : Attempt Int × Sine :=
  match build? s.origin with
  | .ok e => (.ok 0, { e with files := s.files }.print "engine reset")
  | .error e => (.failed e, { s with files := .empty })

/-- Take the lines printed since the last time. -/
def drain (s : Sine) : List String × Sine := (s.printed, { s with printed := [] })

end Sine
end SynthControl
