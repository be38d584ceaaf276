import SynthControl.Proofs.Tending
import SynthControl.Session.Command

/-!
# A call among other callers

A call by name is checked, finds out about the performance, waits for the boundary of a cycle if it has to, and is
sent to the worker.  Between two of its steps anybody else may make any of theirs: other callers take numbers,
register and send, the worker serves requests and performs, the router hands replies out, and transport, listeners,
device and memory change in any way.

* `Operation.check`, `Session.call_eq` — the checks that a call by name begins with;
* `Calling`, `Calling.turn` — where a call is, and its next step;
* `CallingSession`, `CallingSession.Step`, `CallingSession.Reachable` — a call with those around it, a step of
  anybody, and what can come of it;
* `Crowd.join` — the caller as one of the crowd;
* `CallingSession.Course` — what a call has done so far and what it has found, stage by stage;
* `CallingSession.Accounted.step`, `CallingSession.accounted_of_reachable` — **every step keeps the account of a
  call**, and so does every run.
-/

namespace SynthControl

open Relation

variable {φ σ ω ι : Type}

/-! ### The checks of a call -/

/-- The operation that a call by name is for, or why there is no call. -/
def Operation.check (name : String) (args : List Value) : Except Error Operation :=
  match ofName? name with
  | none => .error (.unknownOperation name)
  | some op => if args.length = op.arity then .ok op else .error (.wrongArity op args.length)

theorem Operation.check_of_unknown {name : String} (h : ∀ op : Operation, op.name ≠ name) (args : List Value) :
    check name args = .error (.unknownOperation name) := by
  rw [check]
  cases hname : ofName? name with
  | none => rfl
  | some op => exact absurd (ofName?_eq_some_iff.1 hname) (h op)

theorem Operation.check_of_named {name : String} {op : Operation} (h : op.name = name) (args : List Value) :
    check name args = if args.length = op.arity then .ok op else .error (.wrongArity op args.length) := by
  rw [check, ofName?_eq_some_iff.2 h]

/-- A call is what is left of it after the checks. -/
theorem Session.call_eq (E : Engine φ σ) (name : String) (args : List Value) (s : Session φ σ ω) :
    s.call E name args =
      match Operation.check name args with
      | .ok op => s.invoke E op args
      | .error e => (.error e, s) := by
  rw [call, Operation.check]
  cases Operation.ofName? name with
  | none => rfl
  | some op =>
    dsimp only
    split <;> rfl

/-- Where a call by name is. -/
inductive Calling where
  | named (name : String) (args : List Value)
  /-- It has passed the checks. -/
  | busy (task : Invocation)
  | done (answer : Except Error (Option Value))

namespace Calling

/-- The next step of a call: `none` while it has to wait, and when it is over. -/
def turn (expired : Bool) (s : Session φ σ ω) : Calling → Option (Calling × Session φ σ ω)
  | named name args =>
    match Operation.check name args with
    | .ok op => some (busy (.look op args), s)
    | .error e => some (done (.error e), s)
  | busy task =>
    match task.turn expired s with
    | .blocked => none
    | .goesOn task s => some (busy task, s)
    | .ends a s => some (done a, s)
  | done _ => none

/-- The phase that a guarded call finds with its next step. -/
def finds (s : Session φ σ ω) : Calling → Option PlayState
  | busy (.look op _) =>
    match op.dispatch with
    | .guarded => some s.playState
    | .direct => none
  | _ => none

/-- With its next step a call gives up to wait for the boundary of a cycle. -/
def givesUp (expired : Bool) (s : Session φ σ ω) : Calling → Bool
  | busy (.await _ _ i w) => expired && !w.isOver (s.memory.region i)
  | _ => false

end Calling

/-! ### A call and those around it -/

/-- A session with a call and with others who send requests. -/
structure CallingSession (φ σ ω ι : Type) where
  session : Session φ σ ω
  /-- The other callers. -/
  others : ι → Caller
  /-- The requests that the worker has answered, with their numbers and the answers. -/
  served : List (Nat × Request × Reply) := []
  calling : Calling
  /-- The phase that the call has found, if it is guarded. -/
  phase : Option PlayState := none
  /-- The call has waited for the boundary of a cycle, and none came in time. -/
  timedOut : Bool := false
  /-- The requests that the call has put into the queue of the worker. -/
  sent : List (Nat × Request) := []

namespace CallingSession

/-- The others as a crowd. -/
def around (d : CallingSession φ σ ω ι) : Crowd φ σ ι := ⟨d.session.link, d.others, d.served⟩

/-- What a step of the call leaves. -/
def proceed (d : CallingSession φ σ ω ι) (expired : Bool) (k : Calling) (s : Session φ σ ω) : CallingSession φ σ ω ι :=
  { d with
    session := s
    calling := k
    phase := (d.calling.finds d.session).or d.phase
    timedOut := d.timedOut || d.calling.givesUp expired d.session
    sent := d.sent ++ s.link.exchange.calls.drop d.session.link.exchange.calls.length }

/-- What a step of somebody else leaves, who may also have changed transport, listeners and device. -/
def disturb (d : CallingSession φ σ ω ι) (c : Crowd φ σ ι) (t : Transport) (o : Outlets ω) : CallingSession φ σ ω ι :=
  { d with
    session := { d.session with link := c.link, transport := t, outlets := o }
    others := c.caller
    served := c.served }

variable [DecidableEq ι]

/-- A step of anybody. -/
inductive Step (E : Engine φ σ) (d : CallingSession φ σ ω ι) : CallingSession φ σ ω ι → Prop where
  | own (expired : Bool) {k : Calling} {s : Session φ σ ω} (h : d.calling.turn expired d.session = some (k, s)) :
      Step E d (d.proceed expired k s)
  | others {c : Crowd φ σ ι} (h : Crowd.Step E d.around c) (t : Transport) (o : Outlets ω) :
      Step E d (d.disturb c t o)

/-- Somebody is about to call an operation, and the worker has just begun. -/
def create (s : Session φ σ ω) (factory : φ) (memory : Memory) (ask : ι → String × Request) (name : String)
    (args : List Value) : CallingSession φ σ ω ι where
  session := { s with link := { bench := { factory := factory, memory := memory } } }
  others i := { label := (ask i).1, request := (ask i).2 }
  calling := .named name args

/-- What can come of a call, when anybody may do anything before it begins, meanwhile and after it. -/
def Reachable (E : Engine φ σ) (name : String) (args : List Value) (d : CallingSession φ σ ω ι) : Prop :=
  ∃ (s : Session φ σ ω) (factory : φ) (memory : Memory) (ask : ι → String × Request),
    ReflTransGen (Step E) (create s factory memory ask name args) d

end CallingSession

/-! ### The caller as one of the crowd -/

namespace Crowd

/-- One more caller. -/
def join (c : Crowd φ σ ι) (k : Caller) : Crowd φ σ (Option ι) := ⟨c.link, fun o => o.elim k c.caller, c.served⟩

variable [DecidableEq ι] {E : Engine φ σ} {c c' : Crowd φ σ ι} {k k' : Caller}

theorem join_update_some (c : Crowd φ σ ι) (l : Link φ σ) (i : ι) (k k' : Caller) :
    ({ c with link := l, caller := Function.update c.caller i k' } : Crowd φ σ ι).join k =
      { c.join k with link := l, caller := Function.update (c.join k).caller (some i) k' } := by
  rw [join, join, Crowd.mk.injEq]
  refine ⟨rfl, funext fun o => ?_, rfl⟩
  cases o with
  | none => rfl
  | some j =>
    by_cases hj : j = i
    · subst hj
      simp
    · simp [hj]

theorem join_update_none (c : Crowd φ σ ι) (l : Link φ σ) (k k' : Caller) :
    ({ c with link := l } : Crowd φ σ ι).join k' =
      { c.join k with link := l, caller := Function.update (c.join k).caller none k' } := by
  rw [join, join, Crowd.mk.injEq]
  refine ⟨rfl, funext fun o => ?_, rfl⟩
  cases o <;> simp

/-- A step of the others is one of the larger crowd. -/
theorem Step.join (h : Step E c c') (k : Caller) : Step E (c.join k) (c'.join k) := by
  cases h with
  | @call i k' l ht =>
    rw [join_update_some]
    exact .call (some i) ht
  | dismiss => exact .dismiss (c := c.join k)
  | attend notified hl => exact .attend (c := c.join k) notified hl
  | hangUp hl => exact .hangUp (c := c.join k) hl
  | close ht => exact .close (c := c.join k) ht
  | route hr => exact .route (c := c.join k) hr
  | others m es => exact .others (c := c.join k) m es

/-- So is a step of the caller. -/
theorem join_turn {l : Link φ σ} (h : k.turn c.link = some (k', l)) :
    Step E (c.join k) (({ c with link := l } : Crowd φ σ ι).join k') := by
  rw [join_update_none c l k]
  exact .call none h

theorem join_turns {n : Nat} {l : Link φ σ} (h : k.turns n c.link = some (k', l)) :
    ReflTransGen (Step E) (c.join k) (({ c with link := l } : Crowd φ σ ι).join k') := by
  induction n generalizing c k with
  | zero =>
    cases h
    exact .refl
  | succ n ih =>
    rw [Caller.turns] at h
    split at h
    · next k₁ l₁ hfirst => exact .head (join_turn hfirst) (ih (c := { c with link := l₁ }) h)
    · cases h

/-- A worker that takes no more requests takes none ever after, and answers none. -/
theorem Step.hung (h : Step E c c') (hsound : Sound c) (ht : c.link.exchange.takesCalls = false) :
    c'.link.exchange.takesCalls = false ∧ c'.served = c.served := by
  cases h with
  | @call i k l hturn =>
    rw [Caller.turn] at hturn
    split at hturn
    · cases hturn
      exact ⟨ht, rfl⟩
    · cases hturn
      exact ⟨ht, rfl⟩
    · rw [Exchange.send, if_neg (Bool.eq_false_iff.1 ht)] at hturn
      cases hturn
      exact ⟨ht, rfl⟩
    · cases hturn
      exact ⟨ht, rfl⟩
    · obtain ⟨r, -, hr⟩ := Option.map_eq_some_iff.1 hturn
      cases hr
      exact ⟨ht, rfl⟩
    · cases hturn
  | dismiss =>
    rw [Exchange.send, ht]
    exact ⟨ht, rfl⟩
  | attend notified hl => exact absurd hl (hsound.hung ht).2
  | hangUp hl => exact ⟨rfl, rfl⟩
  | close _ => exact ⟨ht, rfl⟩
  | route hr =>
    refine ⟨?_, rfl⟩
    rw [Link.route, Exchange.route]
    repeat' split
    all_goals exact ht
  | others m es => exact ⟨ht, rfl⟩

theorem Step.served_mono (h : Step E c c') : ∀ s ∈ c.served, s ∈ c'.served := by
  cases h with
  | attend notified hl => exact fun s hs => List.mem_append_left _ hs
  | _ => exact fun s hs => hs

theorem Reachable.run {c c' : Crowd φ σ ι} (h : Reachable E c) (hr : ReflTransGen (Step E) c c') : Reachable E c' := by
  obtain ⟨factory, memory, ask, hrun⟩ := h
  exact ⟨factory, memory, ask, hrun.trans hr⟩

end Crowd

/-- A request is put behind the others, or the worker takes no more of them. -/
theorem Link.submit_split (l : Link φ σ) (r : Request) :
    (∃ x, l.submit r = (.ok l.exchange.nextUid, { l with exchange := x }) ∧
      x.calls = l.exchange.calls ++ [(l.exchange.nextUid, r)]) ∨
    (∃ x, l.submit r = (.error .disconnected, { l with exchange := x }) ∧ x.calls = l.exchange.calls ∧
      x.takesCalls = false) := by
  unfold submit Exchange.issue Exchange.register Exchange.send
  dsimp only
  by_cases h : l.exchange.takesCalls = true
  · rw [if_pos h]
    exact .inl ⟨_, rfl, rfl⟩
  · rw [if_neg h]
    exact .inr ⟨_, rfl, rfl, Bool.eq_false_iff.2 h⟩

/-! ### The account of a call -/

namespace CallingSession

section

variable (d : CallingSession φ σ ω ι) (op : Operation)

/-- The call has found nothing yet, and sent nothing. -/
structure Fresh : Prop where
  phase : d.phase = none
  timedOut : d.timedOut = false
  sent : d.sent = []

/-- A guarded call that has found an active performance waits, or is about to. -/
structure Held : Prop where
  guarded : op.dispatch = .guarded
  phase : ∃ p, d.phase = some p ∧ p.isActive = true
  timedOut : d.timedOut = false
  sent : d.sent = []

/-- A guarded call that has found the performance ended, or has waited in vain. -/
structure Dropped : Prop where
  guarded : op.dispatch = .guarded
  cause : (∃ p, d.phase = some p ∧ p.isEnded = true) ∨ d.timedOut = true

/-- The performance has not held the call up. -/
structure Passed : Prop where
  phase : op.dispatch = .guarded → ∃ p, d.phase = some p ∧ p.isEnded = false
  timedOut : d.timedOut = false

variable {d op}

theorem Passed.not_dropped (h : d.Passed op) : ¬d.Dropped op := by
  rintro ⟨hg, ⟨p, hp, hended⟩ | htimed⟩
  · obtain ⟨q, hq, hnot⟩ := h.phase hg
    rw [hp] at hq
    cases hq
    rw [hended] at hnot
    cases hnot
  · rw [h.timedOut] at htimed
    cases htimed

theorem proceed_sent_self (d : CallingSession φ σ ω ι) (expired : Bool) (c : Calling) :
    (d.proceed expired c d.session).sent = d.sent := by
  simp [proceed]

/-- Who is held up by a performance that has just begun, passes when the boundary of a cycle comes. -/
theorem Held.passed (h : d.Held op) : d.Passed op where
  phase _ := by
    obtain ⟨p, hp, hactive⟩ := h.phase
    exact ⟨p, hp, by cases p <;> first | rfl | cases hactive⟩
  timedOut := h.timedOut

/-- A call that finds nothing with its next step and does not give up has found what it had found. -/
theorem Passed.proceed (h : d.Passed op) {expired : Bool} {c : Calling} {s : Session φ σ ω}
    (hf : d.calling.finds d.session = none) (hg : d.calling.givesUp expired d.session = false) :
    (d.proceed expired c s).Passed op where
  phase ho := by
    show ∃ p, (d.calling.finds d.session).or d.phase = some p ∧ p.isEnded = false
    rw [hf, Option.none_or]
    exact h.phase ho
  timedOut := by
    show (d.timedOut || d.calling.givesUp expired d.session) = false
    rw [hg, h.timedOut]
    rfl

end

/-- What a call has done so far and what it has found, stage by stage; `k` is the caller in the crowd. -/
inductive Course (name : String) (args : List Value) (d : CallingSession φ σ ω ι) (k : Caller) : Prop where
  | named (hc : d.calling = .named name args) (hd : d.Fresh) (hk : k.progress = .away)
  | refused {e : Error} (hc : d.calling = .done (.error e)) (ho : Operation.check name args = .error e) (hd : d.Fresh)
  | looks {op : Operation} (hc : d.calling = .busy (.look op args)) (ho : Operation.check name args = .ok op)
      (hd : d.Fresh) (hk : k.progress = .away)
  | enters {op : Operation} {i : Nat} (hc : d.calling = .busy (.enter op args i))
      (ho : Operation.check name args = .ok op) (hd : d.Held op) (hk : k.progress = .away)
  | waits {op : Operation} {i : Nat} {w : Region.Wait} (hc : d.calling = .busy (.await op args i w))
      (ho : Operation.check name args = .ok op) (hd : d.Held op) (hk : k.progress = .away)
  | dropped {op : Operation} (hc : d.calling = .done (.ok none)) (ho : Operation.check name args = .ok op)
      (hd : d.Dropped op) (hs : d.sent = [])
  | sends {op : Operation} (hc : d.calling = .busy (.send op args)) (ho : Operation.check name args = .ok op)
      (hd : d.Passed op) (hs : d.sent = []) (hk : k.progress = .away)
  | engineless {op : Operation} (hc : d.calling = .done (.error (.remote op.name "no engine instance")))
      (ho : Operation.check name args = .ok op) (hd : d.Passed op) (hs : d.sent = []) (hn : d.session.number = none)
  | unsent {op : Operation} {n : Int} (hc : d.calling = .done (.error .disconnected))
      (ho : Operation.check name args = .ok op) (hd : d.Passed op) (hs : d.sent = [])
      (hn : d.session.number = some n) (hx : d.session.link.exchange.takesCalls = false)
  | asks {op : Operation} {n : Int} (hc : d.calling = .busy (.awaitReply op k.uid))
      (ho : Operation.check name args = .ok op) (hd : d.Passed op) (hs : d.sent = [(k.uid, .call n op args)])
      (hn : d.session.number = some n) (hk : k.progress = .waiting)
  | answered {op : Operation} {n : Int} {uid : Nat} {reply : Reply}
      (hc : d.calling = .done ((Link.outcome op.name reply).map some)) (ho : Operation.check name args = .ok op)
      (hd : d.Passed op) (hs : d.sent = [(uid, .call n op args)]) (hn : d.session.number = some n)
      (hx : (uid, .call n op args, reply) ∈ d.served)
  | abandoned {op : Operation} {n : Int} {uid : Nat} (hc : d.calling = .done (.error .disconnected))
      (ho : Operation.check name args = .ok op) (hd : d.Passed op) (hs : d.sent = [(uid, .call n op args)])
      (hn : d.session.number = some n) (hx : d.session.link.exchange.takesCalls = false)
      (hu : ∀ s ∈ d.served, s.1 ≠ uid)

/-- The label and the request of a call, which are known before it begins; of a call that asks for nothing, any. -/
def request (name : String) (args : List Value) (number : Option Int) : String × Request :=
  match Operation.check name args, number with
  | .ok op, some n => (op.name, .call n op args)
  | _, _ => ("", .shutdown)

/-- With its caller in the crowd nobody has begun yet. -/
theorem join_create (s : Session φ σ ω) (factory : φ) (memory : Memory) (ask : ι → String × Request) (name : String)
    (args : List Value) (asked : String × Request) :
    (create s factory memory ask name args).around.join { label := asked.1, request := asked.2 } =
      Crowd.create factory memory fun o => o.elim asked ask := by
  rw [Crowd.join, Crowd.create, Crowd.mk.injEq]
  refine ⟨rfl, funext fun o => ?_, rfl⟩
  cases o <;> rfl

variable [DecidableEq ι] {E : Engine φ σ} {name : String} {args : List Value} {d d' : CallingSession φ σ ω ι}
  {k : Caller}

/-- The account of a call: the caller is one of the crowd, its request is the call, and it has come as far as the
call has. -/
structure Accounted (E : Engine φ σ) (name : String) (args : List Value) (d : CallingSession φ σ ω ι) (k : Caller) :
    Prop where
  reachable : Crowd.Reachable E (d.around.join k)
  role : ∀ op n, Operation.check name args = .ok op → d.session.number = some n →
    k.label = op.name ∧ k.request = .call n op args
  /-- It registers and sends at once. -/
  atOnce : k.progress.isOutstanding = true → k.progress = .waiting
  course : Course name args d k

/-- **A step of anybody else keeps the account.** -/
theorem Accounted.disturb (h : Accounted E name args d k) {c : Crowd φ σ ι} (hstep : Crowd.Step E d.around c)
    (t : Transport) (o : Outlets ω) : Accounted E name args (d.disturb c t o) k := by
  have hhung := fun ht => (hstep.join k).hung (Crowd.sound_of_reachable h.reachable) ht
  refine ⟨h.reachable.run (.single (hstep.join k)), h.role, h.atOnce, ?_⟩
  cases h.course with
  | named hc hd hk => exact .named hc ⟨hd.phase, hd.timedOut, hd.sent⟩ hk
  | refused hc ho hd => exact .refused hc ho ⟨hd.phase, hd.timedOut, hd.sent⟩
  | looks hc ho hd hk => exact .looks hc ho ⟨hd.phase, hd.timedOut, hd.sent⟩ hk
  | enters hc ho hd hk => exact .enters hc ho ⟨hd.guarded, hd.phase, hd.timedOut, hd.sent⟩ hk
  | waits hc ho hd hk => exact .waits hc ho ⟨hd.guarded, hd.phase, hd.timedOut, hd.sent⟩ hk
  | dropped hc ho hd hs => exact .dropped hc ho ⟨hd.guarded, hd.cause⟩ hs
  | sends hc ho hd hs hk => exact .sends hc ho ⟨hd.phase, hd.timedOut⟩ hs hk
  | engineless hc ho hd hs hn => exact .engineless hc ho ⟨hd.phase, hd.timedOut⟩ hs hn
  | unsent hc ho hd hs hn hx => exact .unsent hc ho ⟨hd.phase, hd.timedOut⟩ hs hn (hhung hx).1
  | asks hc ho hd hs hn hk => exact .asks hc ho ⟨hd.phase, hd.timedOut⟩ hs hn hk
  | answered hc ho hd hs hn hx => exact .answered hc ho ⟨hd.phase, hd.timedOut⟩ hs hn (hstep.served_mono _ hx)
  | abandoned hc ho hd hs hn hx hu =>
    have hserved : c.served = d.served := (hhung hx).2
    refine .abandoned hc ho ⟨hd.phase, hd.timedOut⟩ hs hn (hhung hx).1 fun s hs' => hu s ?_
    rw [← hserved]
    exact hs'

/-! ### The steps of the call -/

/-- A step of the call that leaves the session as it is. -/
theorem Accounted.stay (h : Accounted E name args d k) {expired : Bool} {c : Calling}
    (hc : Course name args (d.proceed expired c d.session) k) :
    ∃ k', Accounted E name args (d.proceed expired c d.session) k' :=
  ⟨k, h.reachable, h.role, h.atOnce, hc⟩

section

variable {expired : Bool} {c : Calling} {s : Session φ σ ω}

theorem Accounted.check (h : Accounted E name args d k) (hc : d.calling = .named name args) (hd : d.Fresh)
    (hk : k.progress = .away) (ht : d.calling.turn expired d.session = some (c, s)) :
    ∃ k', Accounted E name args (d.proceed expired c s) k' := by
  have hfresh : (d.proceed expired c d.session).Fresh := by
    refine ⟨?_, ?_, (proceed_sent_self d expired c).trans hd.sent⟩
    · simp [proceed, hc, Calling.finds, hd.phase]
    · simp [proceed, hc, Calling.givesUp, hd.timedOut]
  rw [hc, Calling.turn] at ht
  split at ht
  · next op ho =>
    cases ht
    exact h.stay (.looks rfl ho hfresh hk)
  · next e ho =>
    cases ht
    exact h.stay (.refused rfl ho hfresh)

theorem Accounted.look (h : Accounted E name args d k) {op : Operation} (hc : d.calling = .busy (.look op args))
    (ho : Operation.check name args = .ok op) (hd : d.Fresh) (hk : k.progress = .away)
    (ht : d.calling.turn expired d.session = some (c, s)) : ∃ k', Accounted E name args (d.proceed expired c s) k' := by
  have hsent : (d.proceed expired c d.session).sent = [] := (proceed_sent_self d expired c).trans hd.sent
  have htimed : (d.proceed expired c d.session).timedOut = false := by
    simp [proceed, hc, Calling.givesUp, hd.timedOut]
  have hphase : op.dispatch = .guarded → (d.proceed expired c d.session).phase = some d.session.playState := by
    intro hg
    simp [proceed, hc, Calling.finds, hg]
  rw [hc] at ht
  simp only [Calling.turn, Invocation.turn] at ht
  cases hg : op.dispatch with
  | direct =>
    rw [hg] at ht
    cases ht
    refine h.stay (.sends rfl ho ⟨fun hx => ?_, htimed⟩ hsent hk)
    rw [hg] at hx
    cases hx
  | guarded =>
    rw [hg] at ht
    dsimp only at ht
    by_cases hactive : d.session.playState.isActive = true
    · rw [if_pos hactive] at ht
      cases ht
      exact h.stay (.enters rfl ho ⟨hg, ⟨_, hphase hg, hactive⟩, htimed, hsent⟩ hk)
    · rw [if_neg hactive] at ht
      by_cases hended : d.session.playState.isEnded = true
      · rw [if_pos hended] at ht
        cases ht
        exact h.stay (.dropped rfl ho ⟨hg, .inl ⟨_, hphase hg, hended⟩⟩ hsent)
      · rw [if_neg hended] at ht
        cases ht
        exact h.stay (.sends rfl ho ⟨fun _ => ⟨_, hphase hg, by simpa using hended⟩, htimed⟩ hsent hk)

theorem Accounted.enter (h : Accounted E name args d k) {op : Operation} {i : Nat}
    (hc : d.calling = .busy (.enter op args i)) (ho : Operation.check name args = .ok op) (hd : d.Held op)
    (hk : k.progress = .away) (ht : d.calling.turn expired d.session = some (c, s)) :
    ∃ k', Accounted E name args (d.proceed expired c s) k' := by
  have hpassed : (d.proceed expired c d.session).Passed op := hd.passed.proceed (by rw [hc]; rfl) (by rw [hc]; rfl)
  have hsent : (d.proceed expired c d.session).sent = [] := (proceed_sent_self d expired c).trans hd.sent
  obtain ⟨p, hp, hactive⟩ := hd.phase
  have hphase : (d.proceed expired c d.session).phase = some p := by simp [proceed, hc, Calling.finds, hp]
  rw [hc] at ht
  simp only [Calling.turn, Invocation.turn] at ht
  split at ht
  · cases ht
  · next heq =>
    cases ht
    split at heq
    · cases heq
      exact h.stay (.sends rfl ho hpassed hsent hk)
    · cases heq
      exact h.stay (.waits rfl ho ⟨hd.guarded, ⟨p, hphase, hactive⟩, hpassed.timedOut, hsent⟩ hk)
  · next heq =>
    split at heq <;> cases heq

theorem Accounted.await (h : Accounted E name args d k) {op : Operation} {i : Nat} {w : Region.Wait}
    (hc : d.calling = .busy (.await op args i w)) (ho : Operation.check name args = .ok op) (hd : d.Held op)
    (hk : k.progress = .away) (ht : d.calling.turn expired d.session = some (c, s)) :
    ∃ k', Accounted E name args (d.proceed expired c s) k' := by
  have hsent : (d.proceed expired c d.session).sent = [] := (proceed_sent_self d expired c).trans hd.sent
  have hgives : d.calling.givesUp expired d.session = (expired && !w.isOver (d.session.memory.region i)) := by
    rw [hc]
    rfl
  rw [hc] at ht
  simp only [Calling.turn, Invocation.turn] at ht
  by_cases hover : w.isOver (d.session.memory.region i) = true
  · rw [if_pos hover] at ht
    cases ht
    refine h.stay (.sends rfl ho (hd.passed.proceed (by rw [hc]; rfl) ?_) hsent hk)
    rw [hgives, hover, Bool.not_true, Bool.and_false]
  · rw [if_neg hover] at ht
    cases expired with
    | false => cases ht
    | true =>
      cases ht
      refine h.stay (.dropped rfl ho ⟨hd.guarded, .inr ?_⟩ hsent)
      show (d.timedOut || d.calling.givesUp true d.session) = true
      rw [hgives, Bool.eq_false_iff.2 hover, Bool.not_false, Bool.and_self, Bool.or_true]

theorem Accounted.send (h : Accounted E name args d k) {op : Operation} (hc : d.calling = .busy (.send op args))
    (ho : Operation.check name args = .ok op) (hd : d.Passed op) (hs : d.sent = []) (hk : k.progress = .away)
    (ht : d.calling.turn expired d.session = some (c, s)) : ∃ k', Accounted E name args (d.proceed expired c s) k' := by
  have hpassed : (d.proceed expired c s).Passed op := hd.proceed (by rw [hc]; rfl) (by rw [hc]; rfl)
  rw [hc] at ht
  simp only [Calling.turn, Invocation.turn] at ht
  cases hn : d.session.number with
  | none =>
    rw [hn] at ht
    cases ht
    exact h.stay (.engineless rfl ho hpassed ((proceed_sent_self d expired _).trans hs) hn)
  | some n =>
    rw [hn] at ht
    dsimp only at ht
    obtain ⟨hlabel, hrequest⟩ := h.role op n ho hn
    have hrole : ∀ op' n', Operation.check name args = .ok op' → some n = some n' →
        k.label = op'.name ∧ Request.call n op args = .call n' op' args := by
      rintro op' n' ho' ⟨⟩
      cases ho.symm.trans ho'
      exact ⟨hlabel, rfl⟩
    have hturns := Caller.submit_eq_turns d.session.link k hk
    rw [hrequest] at hturns
    rcases d.session.link.submit_split (.call n op args) with ⟨x, hsub, hcalls⟩ | ⟨x, hsub, hcalls, htakes⟩
    · rw [hsub] at ht hturns
      cases ht
      have hrun := Crowd.join_turns (E := E) (c := d.around) hturns
      have hsent : (d.proceed expired (.busy (.awaitReply op d.session.link.exchange.nextUid))
          { d.session with link.exchange := x }).sent = [(d.session.link.exchange.nextUid, .call n op args)] := by
        simp [proceed, hs, hcalls]
      exact ⟨_, h.reachable.run hrun, hrole, fun _ => rfl, .asks rfl ho hpassed hsent rfl rfl⟩
    · rw [hsub] at ht hturns
      cases ht
      have hrun := Crowd.join_turns (E := E) (c := d.around) hturns
      have hsent : (d.proceed expired (.done (.error .disconnected)) { d.session with link.exchange := x }).sent =
          [] := by
        simp [proceed, hs, hcalls]
      exact ⟨_, h.reachable.run hrun, hrole, nofun, .unsent rfl ho hpassed hsent rfl htakes⟩

theorem Accounted.reply (h : Accounted E name args d k) {op : Operation} {n : Int}
    (hc : d.calling = .busy (.awaitReply op k.uid)) (ho : Operation.check name args = .ok op) (hd : d.Passed op)
    (hs : d.sent = [(k.uid, .call n op args)]) (hn : d.session.number = some n) (hk : k.progress = .waiting)
    (ht : d.calling.turn expired d.session = some (c, s)) : ∃ k', Accounted E name args (d.proceed expired c s) k' := by
  have hpassed : (d.proceed expired c s).Passed op := hd.proceed (by rw [hc]; rfl) (by rw [hc]; rfl)
  obtain ⟨hlabel, hrequest⟩ := h.role op n ho hn
  have hsound := Crowd.sound_of_reachable h.reachable
  rw [hc] at ht
  simp only [Calling.turn, Invocation.turn] at ht
  cases hcollect : d.session.link.collect op.name k.uid with
  | none =>
    rw [hcollect] at ht
    cases ht
  | some r =>
    rw [hcollect] at ht
    obtain ⟨rfl, rfl⟩ : c = .done (r.map some) ∧ s = d.session := by
      cases r <;> cases ht <;> exact ⟨rfl, rfl⟩
    have hturn : k.turn d.session.link = some ({ k with progress := .answered r }, d.session.link) := by
      simp only [Caller.turn, hk, hlabel, hcollect, Option.map_some]
    have hreachable : Crowd.Reachable E (d.around.join { k with progress := .answered r }) :=
      h.reachable.run (.single (Crowd.join_turn (c := d.around) hturn))
    have hsent := (proceed_sent_self d expired (.done (r.map some))).trans hs
    refine ⟨_, hreachable, h.role, by rintro ⟨⟩, ?_⟩
    rcases Link.collect_cases hcollect with ⟨reply, hreceived, rfl⟩ | ⟨hgone, rfl⟩
    · -- what it was handed is the answer to a request of its number, which is its own
      obtain ⟨request, hserved⟩ := hsound.replies_served (k.uid, reply)
        (List.mem_append_right _ (Exchange.mem_of_receive hreceived))
      have hasked := hsound.asked (i := none) (by show k.progress ≠ .away; simp [hk]) hserved rfl
      obtain rfl : k.request = request := hasked.2.1
      rw [hrequest] at hserved
      exact .answered rfl ho hpassed hsent hn hserved
    · obtain ⟨htakes, hunserved⟩ := Crowd.gone_cases (i := none) h.reachable hk hgone
      exact .abandoned rfl ho hpassed hsent hn htakes hunserved

end

/-- **Every step keeps the account of a call.** -/
theorem Accounted.step (h : Accounted E name args d k) (hstep : Step E d d') : ∃ k', Accounted E name args d' k' := by
  cases hstep with
  | others hcrowd t o => exact ⟨k, h.disturb hcrowd t o⟩
  | own expired ht =>
    have hgoes : ∀ a, d.calling ≠ .done a := by
      intro a ha
      rw [ha] at ht
      cases ht
    cases h.course with
    | named hc hd hk => exact h.check hc hd hk ht
    | looks hc ho hd hk => exact h.look hc ho hd hk ht
    | enters hc ho hd hk => exact h.enter hc ho hd hk ht
    | waits hc ho hd hk => exact h.await hc ho hd hk ht
    | sends hc ho hd hs hk => exact h.send hc ho hd hs hk ht
    | asks hc ho hd hs hn hk => exact h.reply hc ho hd hs hn hk ht
    | refused hc | dropped hc | engineless hc | unsent hc | answered hc | abandoned hc => exact absurd hc (hgoes _)

/-- **So does every run.** -/
theorem accounted_of_reachable (h : Reachable E name args d) : ∃ k, Accounted E name args d k := by
  obtain ⟨s, factory, memory, ask, hrun⟩ := h
  induction hrun with
  | refl =>
    let asked := request name args s.number
    have hreachable : Crowd.Reachable E
        ((create s factory memory ask name args).around.join { label := asked.1, request := asked.2 }) := by
      rw [join_create]
      exact ⟨factory, memory, fun o => o.elim asked ask, .refl⟩
    refine ⟨_, hreachable, fun op n ho hn => ?_, by rintro ⟨⟩, .named rfl ⟨rfl, rfl, rfl⟩ rfl⟩
    have hasked : asked = (op.name, .call n op args) := by
      show request name args s.number = _
      simp only [request, ho, show s.number = some n from hn]
    exact ⟨congrArg Prod.fst hasked, congrArg Prod.snd hasked⟩
  | tail _ hstep ih =>
    obtain ⟨k, hk⟩ := ih
    exact hk.step hstep

end CallingSession
end SynthControl
