import SynthControl.Session.Basic

/-!
# The life cycle of a performance

Start, stop and reset are conversations with the worker and the transport; pause and resumption act on the
shared region at once.

* `Lifecycle` — where a client is in such a conversation;
* `Lifecycle.turn` — its next step;
* `Session.start`, `stop`, `reset` — the whole conversations;
* `Session.pause`, `Session.resume`.

A start asks the transport for its completion before it asks the worker, so that no phase is missed; it
answers the status of the engine, and what is not zero gives the completion up.  A stop waits for the end
of the performance.  A reset stops first, if it has to, and ends on a fresh region.
-/

namespace SynthControl

/-- What a stop is for. -/
inductive Purpose where
  | stop
  | reset
  deriving DecidableEq, Repr

/-- Where a client is in its conversation. -/
inductive Lifecycle where
  /-- A start begins: ask for its completion. -/
  | arm
  | sendStart (number : Int) (completion : Nat) (io : Handle)
  | awaitStart (completion uid : Nat)
  | disarm (answer : Except Error Int)
  /-- Wait for the completion of the start. -/
  | awaitStarted (status : Int) (completion : Nat)
  /-- A reset begins: find out whether it has to stop first. -/
  | checkReset
  | requestStop (purpose : Purpose)
  /-- Wait for the completion of the stop. -/
  | awaitStopped (purpose : Purpose) (completion : Nat)
  | sendReset
  | awaitReset (uid : Nat)
  /-- Go on to a fresh region, and answer. -/
  | returnToStopped (status : Int)

namespace Lifecycle

variable {φ σ ω : Type}

/-- The step that follows a completed stop, or one that was not needed, with the answer to a mere stop. -/
def afterStop (s : Session φ σ ω) (answer : Int) :
    Purpose → Session.Turn Lifecycle (Except Error Int) (Session φ σ ω)
  | .stop => .ends (.ok answer) s
  | .reset => .goesOn .sendReset s

/-- Look at a completion: `none` while it is open. -/
def look (s : Session φ σ ω) (completion : Nat) : Option (Bool × Session φ σ ω) :=
  match s.transport.completions.take completion with
  | (.opened, _) => none
  | (.resolved _, cs) => some (true, { s with transport := { s.transport with completions := cs } })
  | (.closed, _) => some (false, s)

/-- The next step of a conversation. -/
def turn (s : Session φ σ ω) :
    Lifecycle → Session.Turn Lifecycle (Except Error Int) (Session φ σ ω)
  | arm =>
    match s.number, s.transport.armStart with
    | none, _ => .ends (.ok (-1)) s
    | some _, (.error e, _) => .ends (.error e) s
    | some n, (.ok c, t) => .goesOn (sendStart n c t.io) { s with transport := t }
  | sendStart n c io =>
    match s.link.submit (.start n io) with
    | (.error e, l) => .goesOn (disarm (.error e)) { s with link := l }
    | (.ok uid, l) => .goesOn (awaitStart c uid) { s with link := l }
  | awaitStart c uid =>
    match s.link.collect Link.startLabel uid with
    | none => .blocked
    | some (.error e) => .goesOn (disarm (.error e)) s
    | some (.ok v) =>
      if v.asStatus = 0 then .goesOn (awaitStarted 0 c) s
      else .goesOn (disarm (.ok v.asStatus)) s
  | disarm answer => .ends answer { s with transport := s.transport.dropStart }
  | awaitStarted status c =>
    match look s c with
    | none => .blocked
    | some (true, s) => .ends (.ok status) s
    | some (false, s) => .ends (.error .disconnected) s
  | checkReset =>
    if s.playState.isStoppable then .goesOn (requestStop .reset) s else .goesOn sendReset s
  | requestStop purpose =>
    match s.stage.requestStop with
    | (.error e, _) => .ends (.error e) s
    | (.ok none, _) => afterStop s (-1) purpose
    | (.ok (some c), t) => .goesOn (awaitStopped purpose c) (s.setStage t)
  | awaitStopped purpose c =>
    match look s c with
    | none => .blocked
    | some (true, s) => afterStop s 0 purpose
    | some (false, s) => .ends (.error .disconnected) s
  | sendReset =>
    match s.number with
    | none => .ends (.ok (-1)) s
    | some n =>
      match s.link.submit (.reset n) with
      | (.error e, l) => .ends (.error e) { s with link := l }
      | (.ok uid, l) => .goesOn (awaitReset uid) { s with link := l }
  | awaitReset uid =>
    match s.link.collect Link.resetLabel uid with
    | none => .blocked
    | some (.error e) => .ends (.error e) s
    | some (.ok v) => .goesOn (returnToStopped v.asStatus) s
  | returnToStopped status =>
    .ends (.ok status) ((s.setStage s.stage.replaceRegion).change .stopped)

end Lifecycle

namespace Session

variable {φ σ ω : Type}

/-- A whole conversation. -/
def converse (E : Engine φ σ) (task : Lifecycle) (s : Session φ σ ω) :
    Except Error Int × Session φ σ ω :=
  let (answer, s) := drive E (fun _ task s => Lifecycle.turn s task) patience 0 task s.settle
  (answer.getD (.error .disconnected), s)

/-- Start a performance and wait until it has begun: the status of the engine, minus one without an
engine. -/
def start (E : Engine φ σ) : Session φ σ ω → Except Error Int × Session φ σ ω := converse E .arm

/-- Stop the performance and wait until it has ended; minus one when there is nothing to stop. -/
def stop (E : Engine φ σ) : Session φ σ ω → Except Error Int × Session φ σ ω :=
  converse E (.requestStop .stop)

/-- Stop if needed, reset the engine, and go on to a fresh region: the status of the engine. -/
def reset (E : Engine φ σ) : Session φ σ ω → Except Error Int × Session φ σ ω :=
  converse E .checkReset

/-- Pause the performance; tells whether it was paused. -/
def pause (s : Session φ σ ω) : Bool × Session φ σ ω :=
  let s := s.settle
  let (paused, t) := s.stage.pause Outlets.surroundings
  (paused, s.setStage t)

/-- Resume the performance; tells whether it was resumed. -/
def resume (s : Session φ σ ω) : Bool × Session φ σ ω :=
  let s := s.settle
  let (resumed, t) := s.stage.resume Outlets.surroundings
  (resumed, s.setStage t)

end Session
end SynthControl
