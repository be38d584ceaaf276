import SynthControl.Session.Basic

/-!
# Calls

Operations on the engine of a session.  While a performance has just begun, a guarded operation waits for
the boundary of a render cycle, and is dropped when none comes in time; after the performance ended it is
dropped at once.  All others are sent right away.

* `Invocation` — where a client is in a call;
* `Invocation.turn` — its next step;
* `Session.invoke` — a whole call of an operation;
* `Session.call` — a whole call by name, which checks the name and the number of arguments.

An answer of `none` says that the call was dropped.
-/

namespace SynthControl

/-- Where a client is in a call. -/
inductive Invocation where
  /-- Find out whether the call has to wait. -/
  | look (op : Operation) (args : List Value)
  /-- Begin to wait on a region for the boundary of a cycle. -/
  | enter (op : Operation) (args : List Value) (region : Nat)
  | await (op : Operation) (args : List Value) (region : Nat) (wait : Region.Wait)
  | send (op : Operation) (args : List Value)
  | awaitReply (op : Operation) (uid : Nat)

namespace Invocation

variable {φ σ ω : Type}

/-- The next step of a call; `expired` tells whether a wait for the boundary of a cycle is over. -/
def turn (expired : Bool) (s : Session φ σ ω) :
    Invocation → Session.Turn Invocation (Except Error (Option Value)) (Session φ σ ω)
  | look op args =>
    match op.dispatch with
    | .direct => .goesOn (send op args) s
    | .guarded =>
      if s.playState.isActive then .goesOn (enter op args s.transport.io.region) s
      else if s.playState.isEnded then .ends (.ok none) s
      else .goesOn (send op args) s
  | enter op args i =>
    match (s.memory.region i).enter? .cycle 0 with
    | none => .goesOn (send op args) s
    | some w => .goesOn (await op args i w) s
  | await op args i w =>
    if w.isOver (s.memory.region i) then .goesOn (send op args) s
    else if expired then .ends (.ok none) s
    else .blocked
  | send op args =>
    match s.number with
    | none => .ends (.error (.remote op.name "no engine instance")) s
    | some n =>
      match s.link.submit (.call n op args) with
      | (.error e, l) => .ends (.error e) { s with link := l }
      | (.ok uid, l) => .goesOn (awaitReply op uid) { s with link := l }
  | awaitReply op uid =>
    match s.link.collect op.name uid with
    | none => .blocked
    | some (.error e) => .ends (.error e) s
    | some (.ok v) => .ends (.ok (some v)) s

end Invocation

namespace Session

variable {φ σ ω : Type}

/-- The rounds that pass in a millisecond. -/
def roundsPerMillisecond : Nat := Render.ticksPerSecond / 1000

/-- The rounds that a wait lasts at most. -/
def longestWait : Nat := 100000

/-- The rounds that a guarded call waits for the boundary of a cycle. -/
def waitRounds (s : Session φ σ ω) : Nat := min (s.callWait * roundsPerMillisecond) longestWait

/-- Execute an operation whose number of arguments is right. -/
def invoke (E : Engine φ σ) (op : Operation) (args : List Value) (s : Session φ σ ω) :
    Except Error (Option Value) × Session φ σ ω :=
  let (answer, s) := drive E (fun expired task s => Invocation.turn expired s task) patience
    s.waitRounds (.look op args) s.settle
  (answer.getD (.error .disconnected), s)

/-- Execute an operation by name. -/
def call (E : Engine φ σ) (name : String) (args : List Value) (s : Session φ σ ω) :
    Except Error (Option Value) × Session φ σ ω :=
  match Operation.ofName? name with
  | none => (.error (.unknownOperation name), s)
  | some op =>
    if args.length = op.arity then s.invoke E op args
    else (.error (.wrongArity op args.length), s)

end Session
end SynthControl
