import SynthControl.Engine
import SynthControl.Event

/-!
# The engine worker

The worker hosts one engine.  It serves requests one after another, and while a performance is active it
produces one block at a time in between, so that a call never falls into the middle of a block.

* `Request`, `Reply` — what the worker is asked for, and its answer;
* `Active`, `Hosted` — the performance that is running, and the engine that is hosted;
* `Bench` — the worker with all that it can reach: the shared memory and the reports it has sent;
* `Bench.next` — what the worker does when no request waits;
* `Bench.step`, `Bench.finish` — one step of a performance, and its end;
* `Bench.handle`, `Bench.leave` — one request, and the end of the worker.

A performance is reported by a phase that begins it and a phase that ends it, and what the engine
printed is reported line by line.  A crash of the engine ends the worker on the spot: nothing is cleaned
up and nothing more is reported.

Main statements: `finish_of_idle`, `step_of_idle` (without a performance there is nothing to do).
-/

namespace SynthControl

/-- What the worker is asked for. -/
inductive Request where
  /-- Build an engine, in place of the hosted one. -/
  | build (setup : Setup)
  /-- Begin a performance of the engine with a number. -/
  | start (number : Int) (io : Handle)
  /-- Reset the engine with a number. -/
  | reset (number : Int)
  /-- Execute an operation on the engine with a number. -/
  | call (number : Int) (op : Operation) (args : List Value)
  /-- End the performance and leave; this is not answered. -/
  | shutdown

/-- The answer to a request. -/
abbrev Reply := Except EngineError Value

/-- The performance that is running. -/
structure Active where
  io : Handle
  mode : Mode
  deriving DecidableEq, Repr

/-- An engine, and its performance if there is one. -/
structure Hosted (σ : Type) where
  engine : σ
  active : Option Active := none

/-- How it stands with the worker. -/
inductive Life where
  | serving
  /-- It left in good order. -/
  | left
  | crashed
  deriving DecidableEq, Repr

/-- The phase that begins a performance. -/
def Mode.started : Mode → PlayState
  | .realtime => .realtimeStarted
  | .offline => .renderStarted

/-- The phase that ends a performance. -/
def Mode.ended : Mode → PlayState
  | .realtime => .realtimeEnded
  | .offline => .renderEnded

/-- The word of the region that tells that a performance is running. -/
def Mode.busy : Mode → Field
  | .realtime => .performing
  | .offline => .rendering

/-- The worker with all that it can reach. -/
structure Bench (φ σ : Type) where
  factory : φ
  hosted : Option (Hosted σ) := none
  /-- The number of the engine that was built last; zero before the first. -/
  number : Int := 0
  /-- The memory that it shares with the control side and the render loop. -/
  memory : Memory := {}
  /-- The reports that were sent and not yet taken, oldest first. -/
  reports : List Event := []
  life : Life := .serving

namespace Bench

variable {φ σ : Type}

/-- The performance that is running. -/
def active? (b : Bench φ σ) : Option Active := b.hosted.bind Hosted.active

/-- Send a report. -/
def report (b : Bench φ σ) (e : Event) : Bench φ σ := { b with reports := b.reports ++ [e] }

/-- The engine is gone, and the worker with it. -/
def crash (b : Bench φ σ) : Bench φ σ := { b with life := .crashed }

/-- Report what the hosted engine has printed. -/
def forward (E : Engine φ σ) (b : Bench φ σ) : Bench φ σ :=
  match b.hosted with
  | none => b
  | some h =>
    let (lines, e) := E.drain h.engine
    { b with hosted := some { h with engine := e }, reports := b.reports ++ lines.map .message }

/-- Let an engine do something with what a handle names. -/
def onEngine {α : Type} (b : Bench φ σ) (h : Handle) (e : σ)
    (f : Io → σ → Attempt α × σ × Io) : Attempt α × σ × Bench φ σ :=
  let memory := b.memory
  let b := { b with memory := {} }
  let ((r, e), memory) := memory.onIo h fun io =>
    let (r, e, io) := f io e
    ((r, e), io)
  (r, e, { b with memory := memory })

/-- Change a region. -/
def onRegion (b : Bench φ σ) (i : Nat) (f : Region → Region) : Bench φ σ :=
  { b with memory := b.memory.modifyRegion i f }

/-- End the performance, if there is one: the engine cleans up, the region tells that nothing runs, what
the engine printed is reported, and then the end.  An error of the cleanup changes nothing of that. -/
def finish (E : Engine φ σ) (b : Bench φ σ) : Bench φ σ :=
  match b.hosted with
  | some ⟨e, some a⟩ =>
    match { b with hosted := none }.onEngine a.io e E.cleanup with
    | (.crashed, _, b) => b.crash
    | (_, e, b) =>
      let b := { b with hosted := some ⟨e, none⟩ }
      let b := b.onRegion a.io.region fun r => (r.set .performing 0).set .rendering 0
      (b.forward E).report (.state a.mode.ended)
  | _ => b

/-- Without a performance there is nothing to end. -/
theorem finish_of_idle (E : Engine φ σ) {b : Bench φ σ} (h : b.active? = none) : b.finish E = b := by
  unfold finish
  split
  · next hb => simp [active?, hb] at h
  · rfl

/-! ### One step of a performance -/

/-- The engine is as far ahead of the render loop as it is to be: by a hardware buffer and a software
buffer, or by as much as the ring holds. -/
def isFull (io : Io) : Bool :=
  let frames := (max (wrapped (io.region.get .hardwareFrames + io.region.get .softwareFrames)) 1).toNat
  let channels := (max (io.region.get .outputs) 1).toNat
  let ring := io.bank.audio.output
  min (frames * channels) ring.capacity ≤ ring.unread

/-- What the worker does when no request waits. -/
inductive Next where
  | idle
  | finish
  | awaitResume
  /-- Wait for the boundary of a render cycle. -/
  | awaitCycle
  | perform
  deriving DecidableEq, Repr

/-- What the worker does when no request waits. -/
def next (b : Bench φ σ) : Next :=
  match b.active? with
  | none => .idle
  | some a =>
    let r := b.memory.region a.io.region
    if r.isSet .stop || (a.mode == .realtime && r.get .performing == 0) then .finish
    else if r.isSet .paused then .awaitResume
    else if a.mode == .realtime && isFull (b.memory.io a.io) then .awaitCycle
    else .perform

/-- Produce a block.  Offline, where nobody else marks the boundary of a cycle, the end of a block is one;
the end of the score and an error end the performance. -/
def perform (E : Engine φ σ) (b : Bench φ σ) : Bench φ σ :=
  match b.hosted with
  | some ⟨e, some a⟩ =>
    match { b with hosted := none }.onEngine a.io e E.perform with
    | (.crashed, _, b) => b.crash
    | (.ok .more, e, b) =>
      let b := { b with hosted := some ⟨e, some a⟩ }
      match a.mode with
      | .realtime => b.forward E
      | .offline => (b.onRegion a.io.region fun r => r.raise .cycle).forward E
    | (_, e, b) =>
      let b := { b with hosted := some ⟨e, some a⟩ }.finish E
      if b.life = .crashed then b else b.forward E
  | _ => b

/-- Wait a while for the boundary of a render cycle, and lower its word unless none came: the word was
raised when the wait began, or somebody notified it meanwhile. -/
def awaitCycle (notified : Bool) (b : Bench φ σ) : Bench φ σ :=
  match b.active? with
  | none => b
  | some a =>
    if (b.memory.region a.io.region).get .cycle ≠ 0 ∨ notified = true then
      b.onRegion a.io.region fun r => r.set .cycle 0
    else b

/-- One step: at most one block is produced.  `notified` tells whether somebody notified the boundary of a
cycle while the worker waited for one, if it did. -/
def step (E : Engine φ σ) (notified : Bool) (b : Bench φ σ) : Bench φ σ :=
  match b.next with
  | .idle | .awaitResume => b
  | .finish => b.finish E
  | .awaitCycle => b.awaitCycle notified
  | .perform => b.perform E

/-- Without a performance a step does nothing. -/
theorem step_of_idle (E : Engine φ σ) (notified : Bool) {b : Bench φ σ} (h : b.active? = none) :
    b.step E notified = b := by
  simp [step, next, h]

/-- A step would change nothing before somebody else moves. -/
def isResting (b : Bench φ σ) : Bool :=
  match b.next, b.active? with
  | .idle, _ | .awaitResume, _ => true
  | .awaitCycle, some a => (b.memory.region a.io.region).get .cycle == 0
  | _, _ => false

/-! ### Requests -/

/-- The hosted engine, if it has this number. -/
def engine? (b : Bench φ σ) (number : Int) : Except EngineError σ :=
  if number = b.number then
    match b.hosted with
    | some h => .ok h.engine
    | none => .error (.instanceGone number)
  else .error (.unknownInstance number)

/-- Put the engine back after a request. -/
def setEngine (b : Bench φ σ) (e : σ) : Bench φ σ :=
  { b with hosted := some ⟨e, b.active?⟩ }

/-- Build an engine in place of the hosted one.  An engine that cannot be built leaves none. -/
def build (E : Engine φ σ) (setup : Setup) (b : Bench φ σ) : Attempt Value × Bench φ σ :=
  let b := b.finish E
  if b.life = .crashed then (.crashed, b)
  else
    match E.build setup b.factory with
    | (.ok e, f) =>
      let number := b.number + 1
      (.ok (.int number), { b with factory := f, hosted := some ⟨e, none⟩, number := number })
    | (.error _, f) => (.ok .unit, { b with factory := f, hosted := none })

/-- Begin a performance.  A running performance refuses another one by status minus one; the engine
refuses by any status but zero. -/
def start (E : Engine φ σ) (number : Int) (io : Handle) (b : Bench φ σ) :
    Attempt Value × Bench φ σ :=
  if b.active?.isSome then (.ok (.int (-1)), b)
  else
    match b.engine? number with
    | .error e => (.failed e, b)
    | .ok e =>
      match b.onEngine io e E.start with
      | (.crashed, _, b) => (.crashed, b)
      | (.failed err, e, b) => (.failed err, b.setEngine e)
      | (.ok status, e, b) =>
        if status ≠ 0 then (.ok (.int status), b.setEngine e)
        else
          let mode := E.mode e
          let clear (bank : Bank) : Bank := { bank with audio := bank.audio.clear }
          let memory := (b.memory.modifyBank io.bank clear).modifyRegion io.region fun r =>
            r.set mode.busy 1
          let b := { b with hosted := some ⟨e, some ⟨io, mode⟩⟩, memory := memory }
          (.ok (.int 0), b.report (.state mode.started))

/-- End the performance and reset the engine. -/
def reset (E : Engine φ σ) (number : Int) (b : Bench φ σ) : Attempt Value × Bench φ σ :=
  let b := b.finish E
  if b.life = .crashed then (.crashed, b)
  else
    match b.engine? number with
    | .error e => (.failed e, b)
    | .ok e =>
      match E.reset e with
      | (.crashed, _) => (.crashed, b)
      | (.failed err, e) => (.failed err, b.setEngine e)
      | (.ok status, e) => (.ok (.int status), b.setEngine e)

/-- Execute an operation. -/
def call (E : Engine φ σ) (number : Int) (op : Operation) (args : List Value) (b : Bench φ σ) :
    Attempt Value × Bench φ σ :=
  match b.engine? number with
  | .error e => (.failed e, b)
  | .ok e =>
    let (r, e) := E.call op args e
    (r, b.setEngine e)

/-- End the performance and leave. -/
def leave (E : Engine φ σ) (b : Bench φ σ) : Bench φ σ :=
  let b := b.finish E
  if b.life = .crashed then b else { b with life := .left }

/-- Answer a request and report what the engine printed meanwhile; after a crash there is no answer. -/
def respond (E : Engine φ σ) : Attempt Value × Bench φ σ → Option Reply × Bench φ σ
  | (.ok v, b) => (some (.ok v), b.forward E)
  | (.failed e, b) => (some (.error e), b.forward E)
  | (.crashed, b) => (none, b.crash)

/-- Serve a request.  There is no answer if the worker leaves or crashes. -/
def handle (E : Engine φ σ) (b : Bench φ σ) : Request → Option Reply × Bench φ σ
  | .build setup => respond E (b.build E setup)
  | .start number io => respond E (b.start E number io)
  | .reset number => respond E (b.reset E number)
  | .call number op args => respond E (b.call E number op args)
  | .shutdown => (none, b.leave E)

end Bench
end SynthControl
