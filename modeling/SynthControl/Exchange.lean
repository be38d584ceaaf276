/-!
# Requests and replies

Any number of callers share one worker.  A caller takes a number, registers under it, sends its request,
and waits.  The worker takes requests in the order in which they were sent and posts replies under their
numbers; a router hands each reply to the caller that registered under its number.  When the worker goes,
it first stops taking requests and then stops posting replies; the router hands out what was posted and
turns away whoever still waits.

* `Exchange` — the register, the two queues, and the replies handed to callers;
* `issue`, `register`, `send`, `withdraw`, `receive` — the steps of a caller;
* `take?`, `post`, `hangUp`, `close` — the steps of the worker;
* `route` — one step of the router.

Main statements: `send_fst` (sending fails exactly when the worker takes no more requests),
`receive_of_pending` (a registered caller waits until its reply was handed to it).
-/

namespace SynthControl

/-- What a caller that looks for its reply finds. -/
inductive Receipt (α : Type) where
  | waiting
  | received (a : α)
  | gone
  deriving DecidableEq, Repr

/-- The exchange between callers with requests `ρ` and a worker with replies `α`. -/
structure Exchange (ρ α : Type) where
  /-- The number of the next caller. -/
  nextUid : Nat := 1
  /-- The register: callers whose reply was not handed out. -/
  pending : List Nat := []
  /-- Requests on their way to the worker, oldest first. -/
  calls : List (Nat × ρ) := []
  takesCalls : Bool := true
  /-- Replies on their way to the router, oldest first. -/
  replies : List (Nat × α) := []
  takesReplies : Bool := true
  /-- Replies that were handed to their callers. -/
  delivered : List (Nat × α) := []
  routing : Bool := true

namespace Exchange

variable {ρ α : Type}

/-! ### Callers -/

/-- Take a number. -/
def issue (x : Exchange ρ α) : Nat × Exchange ρ α :=
  (x.nextUid, { x with nextUid := x.nextUid + 1 })

/-- Register under a number. -/
def register (x : Exchange ρ α) (uid : Nat) : Exchange ρ α :=
  { x with pending := uid :: x.pending }

/-- Send a request, unless the worker takes no more of them; tells whether it was sent. -/
def send (x : Exchange ρ α) (uid : Nat) (r : ρ) : Bool × Exchange ρ α :=
  if x.takesCalls then (true, { x with calls := x.calls ++ [(uid, r)] }) else (false, x)

/-- Take one's own name off the register. -/
def withdraw (x : Exchange ρ α) (uid : Nat) : Exchange ρ α :=
  { x with pending := x.pending.erase uid }

/-- Look for the reply to one's own request. -/
def receive (x : Exchange ρ α) (uid : Nat) : Receipt α :=
  match x.delivered.lookup uid with
  | some a => .received a
  | none => if uid ∈ x.pending then .waiting else .gone

/-! ### The worker -/

/-- Take the oldest request. -/
def take? (x : Exchange ρ α) : Option ((Nat × ρ) × Exchange ρ α) :=
  match x.calls with
  | [] => none
  | c :: cs => some (c, { x with calls := cs })

/-- Post the reply to a request. -/
def post (x : Exchange ρ α) (uid : Nat) (a : α) : Exchange ρ α :=
  { x with replies := x.replies ++ [(uid, a)] }

/-- Stop taking requests; what was sent and not taken is lost. -/
def hangUp (x : Exchange ρ α) : Exchange ρ α := { x with calls := [], takesCalls := false }

/-- Stop posting replies. -/
def close (x : Exchange ρ α) : Exchange ρ α := { x with takesReplies := false }

/-! ### The router -/

/-- Hand the oldest reply to its caller.  When there is none and none can follow, turn away whoever still
waits, and stop. -/
def route (x : Exchange ρ α) : Exchange ρ α :=
  match x.replies with
  | (uid, a) :: rs =>
    if uid ∈ x.pending then
      { x with
        pending := x.pending.erase uid, replies := rs, delivered := (uid, a) :: x.delivered }
    else { x with replies := rs }
  | [] => if x.takesReplies then x else { x with pending := [], routing := false }

/-- The router has something to do. -/
def canRoute (x : Exchange ρ α) : Bool := !x.replies.isEmpty || (!x.takesReplies && x.routing)

/-! ### Small facts -/

/-- Sending fails exactly when the worker takes no more requests. -/
@[simp] theorem send_fst (x : Exchange ρ α) (uid : Nat) (r : ρ) :
    (x.send uid r).1 = x.takesCalls := by
  simp only [send]
  split <;> simp_all

/-- Posting adds one reply to those that travel or were handed out. -/
theorem perm_post (x : Exchange ρ α) (uid : Nat) (a : α) :
    ((x.post uid a).replies ++ (x.post uid a).delivered).Perm
      ((uid, a) :: (x.replies ++ x.delivered)) := by
  show ((x.replies ++ [(uid, a)]) ++ x.delivered).Perm _
  rw [List.append_assoc]
  exact List.perm_middle

/-- A registered caller waits until its reply was handed to it. -/
theorem receive_of_pending {x : Exchange ρ α} {uid : Nat} (h : uid ∈ x.pending)
    (hd : x.delivered.lookup uid = none) : x.receive uid = .waiting := by
  simp [receive, h, hd]

end Exchange
end SynthControl
