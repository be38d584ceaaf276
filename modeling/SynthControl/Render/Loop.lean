import SynthControl.Transport

/-!
# The render loop

The loop stands in for the callback of an audio device.  Once per cycle it delivers the queued MIDI
messages, hands a block of output to the sink, fills a block of input from the source, and marks the
boundary of the cycle.

* `Hooks`, `Called` — the callbacks, and what a callback leaves behind;
* `Loop` — a loop with its parameters, its callbacks and its input block;
* `Loop.check` — what the head of the loop decides;
* `Loop.deliver`, `Loop.emit`, `Loop.absorb`, `Loop.mark` — the four parts of a cycle;
* `Loop.turn` — the head of the loop, and a cycle if it decides for one.

A callback sees the region and the rings, and may change them.  One that crashes takes the loop with it.

Main statements: `length_block`, `length_resized` (blocks have their full size, whatever a callback does).
-/

namespace SynthControl.Render

/-- What a callback leaves behind: its world, the region and the rings, and whether it crashed. -/
structure Called (ω : Type) where
  world : ω
  io : Io
  crashed : Bool := false

/-- The callbacks, each of which may be missing.  Blocks come with their channel count. -/
structure Hooks (ω : Type) where
  midi : Option (Midi.Message → ω → Io → Called ω) := none
  sink : Option (List Float → Nat → ω → Io → Called ω) := none
  /-- Fills a block of input, of which it is given the last contents. -/
  source : Option (List Float → Nat → ω → Io → List Float × Called ω) := none

/-- How it stands with a loop. -/
inductive Run where
  | running
  | finished
  | crashed
  deriving DecidableEq, Repr

/-- A loop with its parameters, its callbacks and its input block. -/
structure Loop (ω : Type) where
  params : Parameters
  hooks : Hooks ω
  input : List Float
  run : Run := .running

/-- A list of samples brought to a length: cut off, or filled up with silence. -/
def resized (n : Nat) (l : List Float) : List Float := l.take n ++ List.replicate (n - l.length) 0

@[simp] theorem length_resized (n : Nat) (l : List Float) : (resized n l).length = n := by
  simp only [resized, List.length_append, List.length_take, List.length_replicate]
  omega

namespace Loop

variable {ω : Type}

/-- Frames per cycle. -/
def frames (l : Loop ω) : Nat := l.params.hardwareFrames.toNat

/-- Output channels. -/
def outputs (l : Loop ω) : Nat := l.params.outputs.toNat

/-- Input channels; a negative number counts as zero. -/
def inputs (l : Loop ω) : Nat := l.params.inputs.toNat

/-- Begin a loop, with a silent input block. -/
def start (params : Parameters) (hooks : Hooks ω) : Loop ω :=
  { params := params, hooks := hooks
    input := List.replicate (params.hardwareFrames.toNat * params.inputs.toNat) 0 }

/-! ### The parts of a cycle -/

/-- Hand `n` records to the MIDI handler, beginning at a slot. -/
def handRecords (handler : Midi.Message → ω → Io → Called ω) : Nat → Nat → Called ω → Called ω
  | 0, _, c => c
  | n + 1, slot, c =>
    if c.crashed then c
    else
      let slots := c.io.bank.midi.slots
      handRecords handler n ((slot + Midi.recordSize) % slots.size)
        (handler (Midi.Ring.load slots slot) c.world c.io)

/-- Deliver every message that is queued when the delivery begins, and then move the cursor past them. -/
def drainTo (handler : Midi.Message → ω → Io → Called ω) (w : ω) (io : Io) : Called ω :=
  let ring := io.bank.midi
  let n := min (Midi.Ring.pending io.region) ring.capacity
  if n = 0 then ⟨w, io, false⟩
  else
    let first := Midi.Ring.head io.region % ring.slots.size
    let c := handRecords handler n first ⟨w, io, false⟩
    if c.crashed then c
    else
      let next := Midi.Ring.advance ring.slots.size n first
      let region := (c.io.region.set .midiIndex next).add .midiPending (-(n : Int))
      { c with io := { c.io with region := region } }

/-- Deliver the queued MIDI messages, if the engine wants MIDI and there is a handler. -/
def deliver (l : Loop ω) (w : ω) (io : Io) : Called ω :=
  match l.params.wantsMidi, l.hooks.midi with
  | true, some handler => drainTo handler w io
  | _, _ => ⟨w, io, false⟩

/-- The next block of output, with silence behind what there is. -/
def block (l : Loop ω) (io : Io) : List Float × Io :=
  let n := l.frames * l.outputs
  let ring := io.bank.audio.output
  let io := { io with bank.audio.output := .create 1 0 }
  let (taken, ring) := ring.read n
  (resized n taken, { io with bank.audio.output := ring })

/-- A block of output has its full size. -/
@[simp] theorem length_block (l : Loop ω) (io : Io) :
    (l.block io).1.length = l.frames * l.outputs := by
  simp [block]

/-- Hand a block of output to the sink. -/
def emit (l : Loop ω) (w : ω) (io : Io) : Called ω :=
  let (samples, io) := l.block io
  match l.hooks.sink with
  | some sink => sink samples l.outputs w io
  | none => ⟨w, io, false⟩

/-- Write a block into the input ring. -/
def writeInput (samples : List Float) (io : Io) : Io :=
  let ring := io.bank.audio.input
  let io := { io with bank.audio.input := .create 1 0 }
  { io with bank.audio.input := ring.write samples }

/-- Fill a block of input and write it into the input ring, if the engine wants input.  Without a source
the block is written as it is. -/
def absorb (l : Loop ω) (w : ω) (io : Io) : Loop ω × Called ω :=
  if !l.params.wantsInput then (l, ⟨w, io, false⟩)
  else
    match l.hooks.source with
    | none => (l, ⟨w, writeInput l.input io, false⟩)
    | some source =>
      let (samples, c) := source l.input l.inputs w io
      if c.crashed then (l, c)
      else
        let samples := resized (l.frames * l.inputs) samples
        ({ l with input := samples }, { c with io := writeInput samples c.io })

/-- Mark the boundary of the cycle. -/
def mark (io : Io) : Io := { io with region := io.region.raise .cycle }

/-! ### The loop -/

/-- What the head of the loop decides. -/
inductive Check where
  | leave
  | rest
  | cycle
  deriving DecidableEq, Repr

/-- What the head of the loop decides. -/
def check (r : Region) : Check :=
  if r.isSet .stop || r.get .performing == 0 then .leave
  else if r.isSet .paused then .rest
  else .cycle

/-- A cycle: MIDI, output, input, boundary; tells whether it was completed. -/
def cycle (l : Loop ω) (w : ω) (io : Io) : Bool × Loop ω × ω × Io :=
  let c := l.deliver w io
  if c.crashed then (false, { l with run := .crashed }, c.world, c.io)
  else
    let c := l.emit c.world c.io
    if c.crashed then (false, { l with run := .crashed }, c.world, c.io)
    else
      let (l, c) := l.absorb c.world c.io
      if c.crashed then (false, { l with run := .crashed }, c.world, c.io)
      else (true, l, c.world, mark c.io)

/-- The head of the loop, and a cycle if it decides for one; tells whether a cycle was completed. -/
def turn (l : Loop ω) (w : ω) (io : Io) : Bool × Loop ω × ω × Io :=
  match l.run, check io.region with
  | .running, .leave => (false, { l with run := .finished }, w, io)
  | .running, .cycle => l.cycle w io
  | _, _ => (false, l, w, io)

/-- The loop would do nothing before somebody else moves. -/
def isResting (l : Loop ω) (r : Region) : Bool :=
  l.run != .running || check r == .rest

end Loop
end SynthControl.Render
