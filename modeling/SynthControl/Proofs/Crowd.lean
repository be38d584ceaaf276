import Mathlib.Logic.Function.Basic
import Mathlib.Logic.Relation
import SynthControl.Link

/-!
# A crowd of callers

Any number of callers share the worker.  Each of them makes its steps one at a time, and between two of them
the others, the worker and the router may make any of theirs.

* `Caller`, `Caller.turn` — a caller with its request, and its next step;
* `submit_eq_turns` — the first steps of a caller on its own are what `Link.submit` does at once;
* `Crowd` — the link, the callers, and a ledger of what the worker answered;
* `Crowd.Step` — a step of anybody;
* `Crowd.Reachable` — what can come of some callers and a worker that has just begun.

A thread that asks again counts as another caller, so that nothing is lost by asking once.
-/

namespace SynthControl

/-- How far a caller is with its request. -/
inductive Progress where
  | away
  /-- It has taken its number. -/
  | issued
  | registered
  | refused
  /-- Its request was sent, and it waits. -/
  | waiting
  | answered (result : Except Error Value)

/-- It is on the register, or may be. -/
def Progress.isOutstanding : Progress → Bool
  | registered | refused | waiting => true
  | _ => false

/-- A caller with its request. -/
structure Caller where
  /-- The name of the request in an error. -/
  label : String
  request : Request
  /-- Its number, once it has taken one. -/
  uid : Nat := 0
  progress : Progress := .away

/-- What a caller makes of a reply. -/
def Link.outcome (label : String) : Reply → Except Error Value
  | .ok v => .ok v
  | .error e => .error (.remote label e.message)

namespace Caller

variable {φ σ : Type}

/-- The next step of a caller: `none` while it has to wait, and when it has its answer. -/
def turn (l : Link φ σ) (k : Caller) : Option (Caller × Link φ σ) :=
  match k.progress with
  | .away =>
    let (uid, x) := l.exchange.issue
    some ({ k with uid := uid, progress := .issued }, { l with exchange := x })
  | .issued =>
    some ({ k with progress := .registered }, { l with exchange := l.exchange.register k.uid })
  | .registered =>
    let (sent, x) := l.exchange.send k.uid k.request
    some ({ k with progress := if sent then .waiting else .refused }, { l with exchange := x })
  | .refused =>
    some ({ k with progress := .answered (.error .disconnected) },
      { l with exchange := l.exchange.withdraw k.uid })
  | .waiting => (l.collect k.label k.uid).map fun r => ({ k with progress := .answered r }, l)
  | .answered _ => none

/-- Some steps of a caller on its own. -/
def turns : Nat → Link φ σ → Caller → Option (Caller × Link φ σ)
  | 0, l, k => some (k, l)
  | n + 1, l, k =>
    match k.turn l with
    | some (k, l) => turns n l k
    | none => none

/-- **A request is submitted by the first steps of its caller**: three if it can be sent, four if not. -/
theorem submit_eq_turns (l : Link φ σ) (k : Caller) (hk : k.progress = .away) :
    turns (if l.exchange.takesCalls then 3 else 4) l k =
      match l.submit k.request with
      | (.ok uid, l') => some ({ k with uid := uid, progress := .waiting }, l')
      | (.error e, l') =>
        some ({ k with uid := l.exchange.nextUid, progress := .answered (.error e) }, l') := by
  obtain ⟨label, request, uid, progress⟩ := k
  subst hk
  by_cases h : l.exchange.takesCalls = true
  · simp [h, turns, turn, Link.submit, Exchange.issue, Exchange.register, Exchange.send]
  · simp [h, turns, turn, Link.submit, Exchange.issue, Exchange.register, Exchange.send]

end Caller

/-! ### The crowd -/

/-- The link, the callers `ι`, and a ledger of what the worker answered. -/
structure Crowd (φ σ ι : Type) where
  /-- The worker and the exchange with it. -/
  link : Link φ σ
  caller : ι → Caller
  /-- The requests that the worker has answered, with their numbers and the answers. -/
  served : List (Nat × Request × Reply) := []

/-- The answer that the worker gives with its next step, and to which request. -/
def Link.answer? {φ σ : Type} (E : Engine φ σ) (l : Link φ σ) : Option (Nat × Request × Reply) :=
  match l.exchange.calls with
  | [] => none
  | (uid, r) :: _ => (l.bench.handle E r).1.map fun a => (uid, r, a)

namespace Crowd

variable {φ σ ι : Type} [DecidableEq ι]

/-- Some callers and a worker that has just begun. -/
def create (factory : φ) (memory : Memory) (ask : ι → String × Request) : Crowd φ σ ι where
  link := { bench := { factory := factory, memory := memory } }
  caller i := { label := (ask i).1, request := (ask i).2 }

/-- A step of anybody. -/
inductive Step (E : Engine φ σ) : Crowd φ σ ι → Crowd φ σ ι → Prop where
  | call {c : Crowd φ σ ι} (i : ι) {k : Caller} {l : Link φ σ}
      (h : (c.caller i).turn c.link = some (k, l)) :
      Step E c { c with link := l, caller := Function.update c.caller i k }
  | dismiss {c : Crowd φ σ ι} :
      Step E c { c with link.exchange := (c.link.exchange.send 0 .shutdown).2 }
  /-- The worker serves a request, or does a step of its performance. -/
  | attend {c : Crowd φ σ ι} (notified : Bool) (h : c.link.bench.life = .serving) :
      Step E c { c with
        link := c.link.attend E notified
        served := c.served ++ (c.link.answer? E).toList }
  /-- A worker that is gone stops taking requests. -/
  | hangUp {c : Crowd φ σ ι} (h : c.link.bench.life ≠ .serving) :
      Step E c { c with link.exchange := c.link.exchange.hangUp }
  /-- After that it stops posting replies. -/
  | close {c : Crowd φ σ ι} (h : c.link.exchange.takesCalls = false) :
      Step E c { c with link.exchange := c.link.exchange.close }
  | route {c : Crowd φ σ ι} (h : c.link.exchange.routing = true) :
      Step E c { c with link := c.link.route }
  /-- Somebody else changes the shared memory, or takes reports. -/
  | others {c : Crowd φ σ ι} (m : Memory) (es : List Event) :
      Step E c { c with link.bench.memory := m, link.bench.reports := es }

/-- What can come of some callers and a worker that has just begun. -/
def Reachable (E : Engine φ σ) (c : Crowd φ σ ι) : Prop :=
  ∃ (factory : φ) (memory : Memory) (ask : ι → String × Request),
    Relation.ReflTransGen (Step E) (create factory memory ask) c

end Crowd
end SynthControl
