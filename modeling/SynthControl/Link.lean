import SynthControl.Error
import SynthControl.Exchange
import SynthControl.Worker

/-!
# The link to the engine worker

The control side's end of the exchange with the worker: a request is sent, and its caller waits for the
reply that belongs to it.

* `Link` — the worker and the exchange with it;
* `Link.attend`, `Link.turn`, `Link.serve` — a step of the worker, and a turn, after which it may hang up;
* `Link.route` — a turn of the router;
* `Link.submit`, `Link.collect` — the two halves of a request;
* `Link.request` — a whole request, while which nobody else asks for anything;
* `Link.build`, `start`, `reset`, `call`, `shutdown` — the requests of the control side.

Main statement: `collect_eq_none_iff` (a caller waits exactly as long as the exchange says so).
-/

namespace SynthControl

/-- The worker and the exchange with it. -/
structure Link (φ σ : Type) where
  /-- The worker with all that it can reach. -/
  bench : Bench φ σ
  exchange : Exchange Request Reply := {}
  running : Bool := true

namespace Link

variable {φ σ : Type}

/-- The name under which a request other than a call is refused. -/
def startLabel : String := "start"

/-- The name under which a reset is refused. -/
def resetLabel : String := "reset"

/-- The name under which a building is refused. -/
def buildLabel : String := "initialize"

/-! ### Turns -/

/-- A worker that is gone takes no requests and posts no replies. -/
def hangUpIfGone (l : Link φ σ) : Link φ σ :=
  if l.bench.life = .serving then l else { l with exchange := l.exchange.hangUp.close }

/-- A step of the worker: it serves the oldest request, or does a step of its performance, during which the
boundary of a cycle may be notified. -/
def attend (E : Engine φ σ) (notified : Bool) (l : Link φ σ) : Link φ σ :=
  if l.bench.life ≠ .serving then l
  else
    match l.exchange.take? with
    | some ((uid, r), x) =>
      let (answer, b) := l.bench.handle E r
      let x := match answer with
        | some a => x.post uid a
        | none => x
      { l with bench := b, exchange := x }
    | none => { l with bench := l.bench.step E notified }

/-- A turn of the worker: a step, after which it hangs up if it is gone. -/
def turn (E : Engine φ σ) (notified : Bool) (l : Link φ σ) : Link φ σ :=
  (l.attend E notified).hangUpIfGone

/-- A turn of the worker while nobody notifies anything. -/
def serve (E : Engine φ σ) (l : Link φ σ) : Link φ σ := l.turn E false

/-- A turn of the router. -/
def route (l : Link φ σ) : Link φ σ := { l with exchange := l.exchange.route }

/-- The worker has a request to serve or a step to do. -/
def canServe (l : Link φ σ) : Bool :=
  l.bench.life == .serving && (!l.exchange.calls.isEmpty || !l.bench.isResting)

/-- Let the router hand out everything that was posted. -/
def routeAll (l : Link φ σ) : Link φ σ :=
  (List.range (l.exchange.replies.length + 1)).foldl (fun l _ => l.route) l

/-! ### Requests -/

/-- Take a number, register, and send a request: the number to wait under. -/
def submit (l : Link φ σ) (r : Request) : Except Error Nat × Link φ σ :=
  let (uid, x) := l.exchange.issue
  let (sent, x) := (x.register uid).send uid r
  if sent then (.ok uid, { l with exchange := x })
  else (.error .disconnected, { l with exchange := x.withdraw uid })

/-- What has come of a request: `none` while its caller has to wait. -/
def collect (label : String) (uid : Nat) (l : Link φ σ) : Option (Except Error Value) :=
  match l.exchange.receive uid with
  | .waiting => none
  | .received (.ok v) => some (.ok v)
  | .received (.error e) => some (.error (.remote label e.message))
  | .gone => some (.error .disconnected)

/-- A caller waits exactly as long as the exchange says so. -/
theorem collect_eq_none_iff {label : String} {uid : Nat} {l : Link φ σ} :
    l.collect label uid = none ↔ l.exchange.receive uid = .waiting := by
  simp only [collect]
  split <;> simp_all

/-- A whole request: the worker serves what waits, and the router hands the reply out. -/
def request (E : Engine φ σ) (label : String) (r : Request) (l : Link φ σ) :
    Except Error Value × Link φ σ :=
  match l.submit r with
  | (.error e, l) => (.error e, l)
  | (.ok uid, l) =>
    let l := ((List.range l.exchange.calls.length).foldl (fun l _ => l.serve E) l).routeAll
    ((l.collect label uid).getD (.error .disconnected), l)

/-- Build an engine: its number, or nothing if it cannot be built. -/
def build (E : Engine φ σ) (setup : Setup) (l : Link φ σ) :
    Except Error (Option Int) × Link φ σ :=
  let (r, l) := l.request E buildLabel (.build setup)
  (r.map Value.asInt?, l)

/-- Begin a performance. -/
def start (E : Engine φ σ) (number : Int) (io : Handle) : Link φ σ → Except Error Value × Link φ σ :=
  request E startLabel (.start number io)

/-- Reset an engine. -/
def reset (E : Engine φ σ) (number : Int) : Link φ σ → Except Error Value × Link φ σ :=
  request E resetLabel (.reset number)

/-- Execute an operation. -/
def call (E : Engine φ σ) (number : Int) (op : Operation) (args : List Value) :
    Link φ σ → Except Error Value × Link φ σ :=
  request E op.name (.call number op args)

/-- Ask the worker to leave, and see it and the router off.  What it still reports stays. -/
def shutdown (E : Engine φ σ) (l : Link φ σ) : Link φ σ :=
  if l.running then
    let (_, x) := l.exchange.send 0 .shutdown
    let l := { l with exchange := x, running := false }
    ((List.range l.exchange.calls.length).foldl (fun l _ => l.serve E) l).routeAll
  else l

/-! ### Watching the worker -/

/-- The number of requests whose reply was not handed out. -/
def pendingCalls (l : Link φ σ) : Nat := l.exchange.pending.length

/-- Let the worker go on until something holds, it rests, or it is gone.  It gets `patience` turns. -/
def advance (E : Engine φ σ) (holds : Link φ σ → Bool) : Nat → Link φ σ → Link φ σ
  | 0, l => l
  | patience + 1, l =>
    if holds l || !l.canServe then l else advance E holds patience (l.serve E)

/-- Take the oldest report of the worker, as soon as there is one; `none` if none will come. -/
def nextReport (E : Engine φ σ) (patience : Nat) (l : Link φ σ) : Option Event × Link φ σ :=
  let l := l.advance E (fun l => !l.bench.reports.isEmpty) patience
  match l.bench.reports with
  | [] => (none, l)
  | e :: es => (some e, { l with bench := { l.bench with reports := es } })

/-- The link as text. -/
def describe (l : Link φ σ) : String :=
  "EngineProxy \x7b pending_calls: " ++ toString l.pendingCalls ++ ", running: "
    ++ toString l.running ++ ", .. \x7d"

end Link
end SynthControl
