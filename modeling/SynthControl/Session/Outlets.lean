import SynthControl.Listeners
import SynthControl.Render.Device

/-!
# Outlets

Everyone that a performance talks to: the listeners, and the render device if there is one.  They share one
world.

* `Outlets` — the bus of the listeners and the device;
* `Outlets.emit` — an event is announced;
* `Outlets.surroundings` — the outlets as the transport sees them;
* `Outlets.tick` — a tick of the clock of the device.
-/

namespace SynthControl

/-- The listeners and the device. -/
structure Outlets (ω : Type) where
  /-- The listeners, with the world that they share with the device. -/
  bus : EventBus ω
  /-- The device; without one nothing is rendered. -/
  device : Option (Render.Device ω) := none

namespace Outlets

variable {ω : Type}

/-- What listeners and device share. -/
def world (o : Outlets ω) : ω := o.bus.world

/-- Put a device and the world back. -/
def withDevice (o : Outlets ω) (d : Render.Device ω) (w : ω) : Outlets ω :=
  { bus := { o.bus with world := w }, device := some d }

/-- Announce an event to the listeners. -/
def emit (o : Outlets ω) (e : Event) : Outlets ω := { o with bus := o.bus.emit e }

/-- The device is given parameters; tells whether it accepts them. -/
def configure (p : Parameters) (o : Outlets ω) : Bool × Outlets ω :=
  match o.device with
  | none => (true, o)
  | some d =>
    let (r, d) := d.configure p
    (r.isOk, { o with device := some d })

/-- The device is told of a phase; tells whether it succeeded. -/
def follow (p : PlayState) (o : Outlets ω) (m : Memory) : Bool × Outlets ω × Memory :=
  match o.device with
  | none => (true, o, m)
  | some d =>
    let (r, d, w, m) := d.follow p o.world m
    (r.isOk, o.withDevice d w, m)

/-- The outlets as the transport sees them. -/
def surroundings : Surroundings (Outlets ω) where
  announce p o m := (o.emit (.state p), m)
  configure p o m :=
    let (ok, o) := o.configure p
    (ok, o, m)
  follow := follow

/-- The device would do nothing before somebody else moves. -/
def isResting (o : Outlets ω) (m : Memory) : Bool :=
  match o.device with
  | none => true
  | some d => d.isResting m

/-- A tick of the clock of the device. -/
def tick (o : Outlets ω) (m : Memory) : Outlets ω × Memory :=
  match o.device with
  | none => (o, m)
  | some d =>
    let (d, w, m) := d.tick o.world m
    (o.withDevice d w, m)

/-- The end of the device. -/
def drop (o : Outlets ω) (m : Memory) : Outlets ω × Memory :=
  match o.device with
  | none => (o, m)
  | some d =>
    let (d, w, m) := d.drop o.world m
    (o.withDevice d w, m)

end Outlets
end SynthControl
