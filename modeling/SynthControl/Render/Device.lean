import SynthControl.Render.Loop

/-!
# The render device

The device coordinates rendering: it is configured at the start of a realtime performance, begins a loop
then, lends it the callbacks, and takes them back when the loop has ended.

* `Fault` and its `message` — why the device cannot do what it is asked for;
* `Device` — the parameters, the callbacks while they are not lent, the loop that was begun;
* `Device.configure`, `Device.follow` — what the device is told by the transport;
* `Device.turn`, `Device.join` — a turn of the loop, and its end;
* `Device.tick` — a tick of the clock, which lets the loop have its turn when a cycle is due;
* `Device.drop` — the end of the device.

Main statement: `configure_ok_iff` (which parameters are accepted).
-/

namespace SynthControl.Render

/-- Why the device cannot do what it is asked for. -/
inductive Fault where
  /-- No loop can run with these parameters. -/
  | unusable (sampleRate outputs frames : Int)
  /-- A loop is to begin, but there are no parameters. -/
  | notConfigured
  /-- A loop is to begin, but the callbacks were not given back. -/
  | hooksLost
  | crashed
  deriving DecidableEq, Repr

/-- The text of a fault. -/
def Fault.message : Fault → String
  | unusable sampleRate outputs frames =>
    "unusable render parameters: " ++ toString sampleRate ++ " Hz, " ++ toString outputs
      ++ " channels, " ++ toString frames ++ " frames"
  | notConfigured => "render thread started before it was configured"
  | hooksLost => "render callbacks were lost"
  | crashed => "render thread panicked"

/-- Ticks of the clock in a second. -/
def ticksPerSecond : Nat := 100000

/-- The device. -/
structure Device (ω : Type) where
  /-- Cycles keep the pace of the clock on the wall. -/
  realtimeClock : Bool
  /-- The parameters that were accepted last. -/
  params : Option Parameters := none
  /-- The callbacks, while they are not lent to a loop. -/
  hooks : Option (Hooks ω)
  /-- The loop that was begun and not yet joined. -/
  loop : Option (Loop ω) := none
  /-- Cycles completed since the last loop began. -/
  cycles : Nat := 0
  asleep : Nat := 0

namespace Device

variable {ω : Type}

/-- A device with its callbacks. -/
def create (realtimeClock : Bool) (hooks : Hooks ω) : Device ω :=
  { realtimeClock := realtimeClock, hooks := some hooks }

/-- A loop was begun and not yet joined. -/
def isRunning (d : Device ω) : Bool := d.loop.isSome

/-- A loop can run with these parameters. -/
def isUsable (p : Parameters) : Bool :=
  0 < p.outputs && 0 < p.hardwareFrames && 0 < p.sampleRate

/-- Accept parameters for the next loop, or refuse them and keep the last ones. -/
def configure (d : Device ω) (p : Parameters) : Except Fault Unit × Device ω :=
  if isUsable p then (.ok (), { d with params := some p })
  else (.error (.unusable p.sampleRate p.outputs p.hardwareFrames), d)

/-- Parameters are accepted exactly when a loop can run with them. -/
theorem configure_ok_iff (d : Device ω) (p : Parameters) :
    (d.configure p).1 = .ok () ↔ isUsable p = true := by
  simp only [configure]
  split <;> simp_all

/-- A turn of the loop. -/
def turn (d : Device ω) (w : ω) (m : Memory) : Device ω × ω × Memory :=
  match d.loop with
  | none => (d, w, m)
  | some l =>
    let d := { d with loop := none }
    let ((completed, l, w), m) := m.onIo l.params.io fun io =>
      let (completed, l, w, io) := l.turn w io
      ((completed, l, w), io)
    ({ d with loop := some l, cycles := if completed then d.cycles + 1 else d.cycles }, w, m)

/-- The ticks from one cycle to the next: as long as the frames of a cycle last. -/
def period (p : Parameters) : Nat := p.hardwareFrames.toNat * ticksPerSecond / p.sampleRate.toNat

/-- A tick of the clock: a turn of the loop, or some more sleep if the next cycle is not due yet. -/
def tick (d : Device ω) (w : ω) (m : Memory) : Device ω × ω × Memory :=
  if d.asleep = 0 then
    match d.loop with
    | some l =>
      ({ d with asleep := if d.realtimeClock then period l.params else 0 } : Device ω).turn w m
    | none => (d, w, m)
  else ({ d with asleep := d.asleep - 1 }, w, m)

/-- The loop would do nothing before somebody else moves. -/
def isResting (d : Device ω) (m : Memory) : Bool :=
  match d.loop with
  | none => true
  | some l => l.isResting (m.region l.params.io.region)

/-- Let the loop go on until it rests or has ended.  It gets `patience` turns. -/
def advance : Nat → Device ω → ω → Memory → Device ω × ω × Memory
  | 0, d, w, m => (d, w, m)
  | patience + 1, d, w, m =>
    if d.isResting m then (d, w, m)
    else
      let (d, w, m) := d.turn w m
      advance patience d w m

/-- The turns that a loop gets to end, after which it is cut off. -/
def patience : Nat := 1000000

/-- Take the callbacks back from a loop that has ended.  Those of a loop that crashed are gone, and the
crash is reported. -/
def collect (d : Device ω) : Except Fault Unit × Device ω :=
  match d.loop with
  | none => (.ok (), d)
  | some l =>
    if l.run = .crashed then (.error .crashed, { d with loop := none, hooks := some {} })
    else (.ok (), { d with loop := none, hooks := some l.hooks })

/-- Wait for the end of the loop and take the callbacks back. -/
def join (d : Device ω) (w : ω) (m : Memory) : Except Fault Unit × Device ω × ω × Memory :=
  let (d, w, m) := advance patience d w m
  let (r, d) := d.collect
  (r, d, w, m)

/-- Begin a loop and lend it the callbacks. -/
def spawn (d : Device ω) : Except Fault Unit × Device ω :=
  match d.params with
  | none => (.error .notConfigured, d)
  | some p =>
    match d.hooks with
    | none => (.error .hooksLost, d)
    | some hooks => (.ok (), { d with hooks := none, loop := some (.start p hooks), cycles := 0, asleep := 0 })

/-- The device is told of a phase: a realtime performance begins a loop, after the last one was joined; an
end joins it. -/
def follow (p : PlayState) (d : Device ω) (w : ω) (m : Memory) :
    Except Fault Unit × Device ω × ω × Memory :=
  match p with
  | .realtimeStarted =>
    match d.join w m with
    | (.error e, r) => (.error e, r)
    | (.ok (), d, w, m) =>
      let (r, d) := d.spawn
      (r, d, w, m)
  | .realtimeEnded | .renderEnded | .stopped => d.join w m
  | _ => (.ok (), d, w, m)

/-- The end of the device: the performance it was configured for is told to stop, and the loop is
joined. -/
def drop (d : Device ω) (w : ω) (m : Memory) : Device ω × ω × Memory :=
  let m := match d.params with
    | some p => m.modifyRegion p.io.region fun r => (r.set .stop 1).notify .paused
    | none => m
  let (_, d, w, m) := d.join w m
  (d, w, m)

/-- The device as text. -/
def describe (d : Device ω) : String :=
  "RenderThread \x7b realtime_clock: " ++ toString d.realtimeClock ++ ", running: "
    ++ toString d.isRunning ++ ", cycles: " ++ toString d.cycles ++ ", .. \x7d"

end Device
end SynthControl.Render
