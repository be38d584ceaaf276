import SynthControl.Config.Basic
import SynthControl.Link
import SynthControl.Session.Outlets

/-!
# Sessions

A session joins the parts of the control side: the link to the engine worker, the transport, the listeners
and the render device.  A dispatcher hands what the worker reports to the transport and to the listeners.

* `Session` — the parts;
* `Session.stage`, `Session.setStage` — the transport with what it acts on;
* `Session.dispatch`, `Session.settle` — one report, and everything that has been reported;
* `Session.round` — every party but the control side moves once;
* `Turn`, `Session.drive` — one step of a client, and the steps of a client until it has its answer;
* `Session.create`, `Session.close` — the beginning and the end of a session;
* `Session.listen`, `Session.sendMidi` — a listener, and a MIDI message for the device.

The parties take turns in a fixed order: router and dispatcher go first, then the client, and worker and
device move only while the client waits.
-/

namespace SynthControl

/-- The control side of a performance, with an engine of states `σ`, a factory of states `φ`, and outlets
that share a world `ω`. -/
structure Session (φ σ ω : Type) where
  link : Link φ σ
  transport : Transport
  outlets : Outlets ω
  /-- The number of the engine, if one could be built. -/
  number : Option Int := none
  /-- Milliseconds that a guarded call waits for the boundary of a cycle. -/
  callWait : Nat := 0

namespace Session

variable {φ σ ω : Type}

/-- The shared memory. -/
def memory (s : Session φ σ ω) : Memory := s.link.bench.memory

/-- The phase of the performance. -/
def playState (s : Session φ σ ω) : PlayState := s.transport.current

/-- The region of the performance. -/
def region (s : Session φ σ ω) : Region := s.memory.region s.transport.io.region

/-- What listeners and device share. -/
def world (s : Session φ σ ω) : ω := s.outlets.world

/-- The transport with what it acts on. -/
def stage (s : Session φ σ ω) : Stage (Outlets ω) := ⟨s.transport, s.memory, s.outlets⟩

/-- Write the memory back. -/
def setMemory (s : Session φ σ ω) (m : Memory) : Session φ σ ω :=
  { s with link.bench.memory := m }

/-- Write the transport and what it acted on back. -/
def setStage (s : Session φ σ ω) (t : Stage (Outlets ω)) : Session φ σ ω :=
  { s with transport := t.transport, outlets := t.around, link.bench.memory := t.memory }

/-- Change the region and the rings of the performance, with a result. -/
def onIo {α : Type} (s : Session φ σ ω) (f : Io → α × Io) : α × Session φ σ ω :=
  let (a, m) := s.memory.onIo s.transport.io f
  (a, s.setMemory m)

/-- Change the region of the performance. -/
def onRegion (s : Session φ σ ω) (f : Region → Region) : Session φ σ ω :=
  s.setMemory (s.memory.modifyRegion s.transport.io.region f)

/-! ### The dispatcher -/

/-- A phase is entered. -/
def change (s : Session φ σ ω) (p : PlayState) : Session φ σ ω :=
  s.setStage (s.stage.change Outlets.surroundings p)

/-- The worker is gone. -/
def workerGone (s : Session φ σ ω) : Bool := s.link.bench.life != .serving

/-- Take the oldest report off the queue. -/
def popReport (s : Session φ σ ω) : Session φ σ ω :=
  { s with link.bench.reports := s.link.bench.reports.tail }

/-- Hand the oldest report on: a phase to the transport, a line to the listeners.  When nothing is
reported any more the transport learns that the worker is gone. -/
def dispatch (s : Session φ σ ω) : Session φ σ ω :=
  match s.link.bench.reports with
  | .state p :: _ => s.popReport.change p
  | .message line :: _ =>
    let s := s.popReport
    { s with outlets := s.outlets.emit (.message line) }
  | [] =>
    if s.workerGone then { s with transport := s.transport.disconnect } else s

/-- Hand on everything that has been reported. -/
def dispatchAll (s : Session φ σ ω) : Session φ σ ω :=
  (List.range (s.link.bench.reports.length + 1)).foldl (fun s _ => s.dispatch) s

/-- Let router and dispatcher do what they can do. -/
def settle (s : Session φ σ ω) : Session φ σ ω := { s with link := s.link.routeAll }.dispatchAll

/-! ### Taking turns -/

/-- Every party but the control side moves once; tells whether worker or device could move. -/
def round (E : Engine φ σ) (s : Session φ σ ω) : Bool × Session φ σ ω :=
  let serves := s.link.canServe
  let renders := !s.outlets.isResting s.memory
  let s := if serves then { s with link := s.link.serve E } else s
  let s := if renders then
      let (o, m) := s.outlets.tick s.memory
      { s with outlets := o }.setMemory m
    else s
  (serves || renders, s.settle)

/-- What a step of a client comes to. -/
inductive Turn (τ α S : Type) where
  | blocked
  | goesOn (task : τ) (session : S)
  | ends (answer : α) (session : S)

/-- The steps of a client until it has its answer.  While it has to wait, the others move; a wait with a
deadline is over after `wait` rounds, or when nobody can move any more.  `none` if the client waits in
vain; it makes `patience` steps at most. -/
def drive {τ α : Type} (E : Engine φ σ)
    (turn : Bool → τ → Session φ σ ω → Turn τ α (Session φ σ ω)) :
    Nat → Nat → τ → Session φ σ ω → Option α × Session φ σ ω
  | 0, _, _, s => (none, s)
  | patience + 1, wait, task, s =>
    match turn (wait == 0) task s with
    | .ends a s => (some a, s.settle)
    | .goesOn task s => drive E turn patience wait task s.settle
    | .blocked =>
      match s.round E with
      | (true, s) => drive E turn patience (wait - 1) task s
      | (false, s) => if wait = 0 then (none, s) else drive E turn patience 0 task s

/-- The steps that a client makes at most. -/
def patience : Nat := 10000000

/-- Let the others move until something holds; tells whether it does.  They get `rounds` rounds. -/
def await (E : Engine φ σ) (holds : Session φ σ ω → Bool) :
    Nat → Session φ σ ω → Bool × Session φ σ ω
  | 0, s => (holds s, s)
  | rounds + 1, s =>
    if holds s then (true, s)
    else
      match s.round E with
      | (true, s) => await E holds rounds s
      | (false, s) => (holds s, s)

/-! ### Beginning and end -/

/-- Begin a session: allocate the buffers and build the engine.  An engine that cannot be built leaves the
session without one.  `log` is the listener that keeps the lines of the engine. -/
def create (E : Engine φ σ) (factory : φ) (config : Config) (device : Option (Render.Device ω))
    (log : Listener ω) (world : ω) : Except Error (Session φ σ ω) :=
  match config.fault? with
  | some f => .error (.config f.message)
  | none =>
    let b := config.buffers
    let (io, memory) := Memory.allocIo {} b.ringSamples b.midiCapacity
    let (_, registry) := Registry.add {} .message log
    let link : Link φ σ := { bench := { factory := factory, memory := memory } }
    match link.build E ⟨config.engine, []⟩ with
    | (.error e, _) => .error e
    | (.ok number, link) =>
      .ok { link := link, transport := { io := io }
            outlets := { bus := ⟨registry, world⟩, device := device }
            number := number, callWait := config.control.callWait }

/-- End a session: the worker is asked to leave, what it still reports is handed on, and then the device
is gone. -/
def close (E : Engine φ σ) (s : Session φ σ ω) : Session φ σ ω :=
  let s := { s with link := s.link.shutdown E }.settle
  let (o, m) := s.outlets.drop s.memory
  { s with outlets := o }.setMemory m

/-- Register a listener. -/
def listen (kind : EventKind) (l : Listener ω) (s : Session φ σ ω) : Session φ σ ω :=
  { s with outlets.bus.registry := (s.outlets.bus.registry.add kind l).2 }

/-- Queue a MIDI message for the device; tells whether there was room. -/
def sendMidi (m : Midi.Message) (s : Session φ σ ω) : Bool × Session φ σ ω :=
  s.onIo fun io =>
    let (queued, ring, region) := io.bank.midi.enqueue io.region m
    (queued, { io with region := region, bank.midi := ring })

/-- The session as text. -/
def describe (s : Session φ σ ω) : String :=
  let instance_ := match s.number with
    | some n => "Some(InstanceHandle(" ++ toString n ++ "))"
    | none => "None"
  "Performance \x7b instance: " ++ instance_ ++ ", play_state: " ++ s.playState.label ++ ", .. \x7d"

end Session
end SynthControl
