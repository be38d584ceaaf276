import Mathlib.Data.List.Nodup
import SynthControl.Proofs.Calling
import SynthControl.Proofs.Conversations
import SynthControl.Sine.Call

/-!
# Which calls are sent, and how each is answered

A call by name is refused if its name or the number of its arguments is wrong, dropped if it is guarded and the
performance has ended or holds it up for too long, and refused if there is no engine.  Every other call sends one
request, and its answer is that of the worker, unless the worker goes before it answers.

* `Crowd.exists_nearer`, `CallingSession.Finishes`, `CallingSession.finishes` — **every call can come to its end**, by
  steps of its own, of the worker and of the router;
* `Session.Besides`, `CallingSession.Leads`, `CallingSession.call_run` — **a whole call of a session is a run** of the
  call and those around it;
* `Command.check_eq`, `Session.execute_eq` — a command is the call of its operation;
* `CallingSession.Replied`, `CallingSession.Verdict` — what a call is answered, and how it has come to its end;
* `CallingSession.call_dispatched` — **which call is refused, dropped or sent, and what it is answered**;
* `Engine.fragile`, `CallingSession.call_to_gone_worker` — a call that is neither refused nor dropped, and that nobody
  answers.
-/

namespace SynthControl

open Relation

variable {φ σ ω ι : Type} {E : Engine φ σ}

/-! ### Coming to an end -/

namespace Crowd

variable [DecidableEq ι]

/-- How far worker and router are from the end of their work, if nobody asks for anything more. -/
def distance (x : Exchange Request Reply) : Nat :=
  2 * x.calls.length + x.replies.length + x.takesCalls.toNat + x.takesReplies.toNat + x.routing.toNat

/-- While a caller waits, worker or router can come closer to the end of their work. -/
theorem exists_nearer {c : Crowd φ σ ι} {k : Caller} (h : Reachable E (c.join k)) (hk : k.progress = .waiting)
    {label : String} (hwait : c.link.collect label k.uid = none) :
    ∃ c', Step E c c' ∧ c'.caller = c.caller ∧ distance c'.link.exchange < distance c.link.exchange := by
  have hsound := sound_of_reachable h
  have htended := tended_of_reachable h
  have hreceive := Link.collect_eq_none_iff.1 hwait
  have hrouting : c.link.exchange.routing = true := by
    by_contra hr
    exact hsound.cleared none (Bool.eq_false_iff.2 hr) hk (Exchange.mem_of_waiting hreceive)
  cases hreplies : c.link.exchange.replies with
  | cons q rs =>
    refine ⟨_, .route hrouting, rfl, ?_⟩
    show distance c.link.exchange.route < _
    rw [Exchange.route, hreplies]
    dsimp only
    split <;> simp only [distance, hreplies, List.length_cons] <;> omega
  | nil =>
    by_cases hopen : c.link.exchange.takesReplies = true
    · by_cases hlife : c.link.bench.life = .serving
      · obtain ⟨q, cs, hcalls⟩ : ∃ q cs, c.link.exchange.calls = q :: cs := by
          rcases htended.queued none hk with hq | ⟨a, hs⟩ | hx
          · exact List.exists_cons_of_ne_nil (List.ne_nil_of_mem hq)
          · -- its answer would have been handed out
            have hposted := htended.posted none hk _ hs rfl
            rw [show (c.join k).link.exchange.replies = [] from hreplies, List.nil_append] at hposted
            obtain ⟨q, hq, hu⟩ := List.mem_map.1 hposted
            have hoff : q.1 ∉ c.link.exchange.pending := hsound.handed q hq
            rw [show q.1 = k.uid from hu] at hoff
            exact absurd (Exchange.mem_of_waiting hreceive) hoff
          · exact absurd hlife hx
        refine ⟨_, .attend false hlife, rfl, ?_⟩
        show distance (c.link.attend E false).exchange < _
        rw [Link.attend, if_neg (not_not_intro hlife), Exchange.take?, hcalls]
        dsimp only
        rcases c.link.bench.handle E q.2 with ⟨answer, b⟩
        cases answer <;>
          simp only [distance, Exchange.post, hcalls, hreplies, List.length_cons, List.length_nil, List.nil_append] <;>
          omega
      · by_cases htakes : c.link.exchange.takesCalls = true
        · refine ⟨_, .hangUp hlife, rfl, ?_⟩
          simp only [distance, Exchange.hangUp, htakes, List.length_nil, Bool.toNat_true, Bool.toNat_false]
          omega
        · refine ⟨_, .close (Bool.eq_false_iff.2 htakes), rfl, ?_⟩
          simp only [distance, Exchange.close, hopen, Bool.toNat_true, Bool.toNat_false]
          omega
    · refine ⟨_, .route hrouting, rfl, ?_⟩
      show distance c.link.exchange.route < _
      rw [Exchange.route, hreplies]
      dsimp only
      rw [if_neg hopen]
      simp only [distance, hrouting, hreplies, Bool.toNat_true, Bool.toNat_false]
      omega

end Crowd

namespace Calling

/-- The steps that are left to a call until it has sent its request or is over. -/
def rank : Calling → Nat
  | named .. => 6
  | busy (.look ..) => 5
  | busy (.enter ..) => 4
  | busy (.await ..) => 3
  | busy (.send ..) => 2
  | busy (.awaitReply ..) => 1
  | done _ => 0

/-- Each of its steps brings a call closer to its end. -/
theorem rank_turn {expired : Bool} {c c' : Calling} {s s' : Session φ σ ω}
    (h : c.turn expired s = some (c', s')) : c'.rank < c.rank := by
  cases c with
  | done a => cases h
  | named name args =>
    rw [turn] at h
    split at h <;> cases h <;> simp [rank]
  | busy task =>
    simp only [turn] at h
    split at h
    · cases h
    all_goals
      next hturn =>
      cases h
      cases task <;> simp only [Invocation.turn] at hturn
      all_goals
        repeat' split at hturn
        all_goals cases hturn
        all_goals simp [rank]

/-- Until it has sent its request a call can take a step, at the latest when its time is over. -/
theorem exists_turn {c : Calling} (s : Session φ σ ω) (h : 2 ≤ c.rank) : ∃ c' s', c.turn true s = some (c', s') := by
  cases c with
  | done a => cases h
  | named name args =>
    rw [turn]
    split <;> exact ⟨_, _, rfl⟩
  | busy task =>
    simp only [turn]
    split
    · next hblocked =>
      cases task with
      | awaitReply op uid => exact absurd h (by simp only [rank]; omega)
      | _ =>
        simp only [Invocation.turn, if_true] at hblocked
        repeat' split at hblocked
        all_goals cases hblocked
    all_goals exact ⟨_, _, rfl⟩

end Calling

namespace CallingSession

variable [DecidableEq ι] {name : String} {args : List Value} {d : CallingSession φ σ ω ι} {k : Caller}

/-- A call can come to its end without anybody asking for anything more. -/
def Finishes (E : Engine φ σ) (d : CallingSession φ σ ω ι) : Prop :=
  ∃ d' a, ReflTransGen (Step E) d d' ∧ d'.calling = .done a ∧ d'.others = d.others

theorem Finishes.done {a : Except Error (Option Value)} (h : d.calling = .done a) : Finishes E d :=
  ⟨d, a, .refl, h, rfl⟩

theorem Finishes.own {expired : Bool} {c : Calling} {s : Session φ σ ω}
    (ht : d.calling.turn expired d.session = some (c, s)) (h : Finishes E (d.proceed expired c s)) : Finishes E d := by
  obtain ⟨d', a, hrun, hd, ho⟩ := h
  exact ⟨d', a, .head (.own expired ht) hrun, hd, ho⟩

theorem finishes_of_asks {op : Operation} {uid : Nat} (h : Accounted E name args d k)
    (hc : d.calling = .busy (.awaitReply op uid)) (hk : k.progress = .waiting) (hu : k.uid = uid) : Finishes E d := by
  subst hu
  induction hn : Crowd.distance d.session.link.exchange using Nat.strongRecOn generalizing d with
  | ind n ih =>
    cases hcollect : d.session.link.collect op.name k.uid with
    | none =>
      obtain ⟨c, hstep, hothers, hnear⟩ := Crowd.exists_nearer h.reachable hk hcollect
      obtain ⟨d', a, hrun, hd, ho⟩ := ih _ (hn ▸ hnear) (h.disturb hstep d.session.transport d.session.outlets) hc rfl
      exact ⟨d', a, .head (.others hstep _ _) hrun, hd, ho.trans hothers⟩
    | some r =>
      have ht : d.calling.turn false d.session = some (.done (r.map some), d.session) := by
        rw [hc]
        simp only [Calling.turn, Invocation.turn, hcollect]
        cases r <;> rfl
      exact .own ht (.done rfl)

/-- **Every call can come to its end**, by steps of its own, of the worker and of the router. -/
theorem finishes (h : Accounted E name args d k) : Finishes E d := by
  induction hn : d.calling.rank using Nat.strongRecOn generalizing d k with
  | ind n ih =>
    by_cases hrank : 2 ≤ d.calling.rank
    · obtain ⟨c, s, ht⟩ := Calling.exists_turn d.session hrank
      obtain ⟨k', hk'⟩ := h.step (.own true ht)
      exact .own ht (ih _ (hn ▸ Calling.rank_turn ht) hk' rfl)
    · cases h.course with
      | refused hc | dropped hc | engineless hc | unsent hc | answered hc | abandoned hc => exact .done hc
      | asks hc _ _ _ _ hk => exact finishes_of_asks h hc hk rfl
      | named hc | looks hc | enters hc | waits hc | sends hc =>
        rw [hc] at hrank
        simp only [Calling.rank] at hrank
        omega

end CallingSession

/-! ### Whole calls -/

/-- Once the router has stopped and nobody is on the register, it has nothing left to do. -/
theorem Exchange.route_of_stopped {ρ α : Type} {x : Exchange ρ α} (hr : x.routing = false)
    (ht : x.takesReplies = false) (hn : x.replies = []) (hp : x.pending = []) : x.route = x := by
  obtain ⟨nextUid, pending, calls, takesCalls, replies, takesReplies, delivered, routing⟩ := x
  subst hr ht hn hp
  rfl

namespace Session

/-- Nothing changes but the memory, the reports, the transport and the outlets. -/
def Besides (s s' : Session φ σ ω) : Prop :=
  ∃ m es t o, s' = { s with link.bench.memory := m, link.bench.reports := es, transport := t, outlets := o }

variable {s s' s'' : Session φ σ ω}

theorem Besides.refl (s : Session φ σ ω) : s.Besides s := ⟨_, _, _, _, rfl⟩

theorem Besides.trans (h : s.Besides s') (h' : s'.Besides s'') : s.Besides s'' := by
  obtain ⟨_, _, _, _, rfl⟩ := h
  obtain ⟨_, _, _, _, rfl⟩ := h'
  exact ⟨_, _, _, _, rfl⟩

theorem besides_dispatch (s : Session φ σ ω) : s.Besides s.dispatch := by
  rw [dispatch]
  split
  · exact ⟨_, _, _, _, rfl⟩
  · exact ⟨_, _, _, _, rfl⟩
  · split
    · exact ⟨_, _, _, _, rfl⟩
    · exact .refl s

theorem besides_dispatchAll (s : Session φ σ ω) : s.Besides s.dispatchAll := by
  have hfold : ∀ (ns : List Nat) (s : Session φ σ ω), s.Besides (ns.foldl (fun s _ => s.dispatch) s) := by
    intro ns
    induction ns with
    | nil => exact .refl
    | cons n ns ih => exact fun s => (besides_dispatch s).trans (ih s.dispatch)
  exact hfold _ s

end Session

namespace CallingSession

variable [DecidableEq ι] {name : String} {args : List Value} {d d' d'' : CallingSession φ σ ω ι}

/-- The call and the other callers stay where they are, while worker, router and the rest of the session move. -/
structure Meanwhile (E : Engine φ σ) (d d' : CallingSession φ σ ω ι) : Prop where
  run : ReflTransGen (Step E) d d'
  calling_eq : d'.calling = d.calling
  others_eq : d'.others = d.others

theorem Meanwhile.refl (d : CallingSession φ σ ω ι) : Meanwhile E d d := ⟨.refl, rfl, rfl⟩

theorem Meanwhile.trans (h : Meanwhile E d d') (h' : Meanwhile E d' d'') : Meanwhile E d d'' :=
  ⟨h.run.trans h'.run, h'.calling_eq.trans h.calling_eq, h'.others_eq.trans h.others_eq⟩

/-- None of the other callers is under way. -/
def Quiet (d : CallingSession φ σ ω ι) : Prop := ∀ i, (d.others i).progress.isOutstanding = false

theorem Meanwhile.quiet (h : Meanwhile E d d') (hq : d.Quiet) : d'.Quiet := by
  rw [Quiet, h.others_eq]
  exact hq

theorem Reachable.run (h : Reachable E name args d) (hr : ReflTransGen (Step E) d d') : Reachable E name args d' := by
  obtain ⟨s, factory, memory, ask, hrun⟩ := h
  exact ⟨s, factory, memory, ask, hrun.trans hr⟩

theorem meanwhile_besides {s : Session φ σ ω} (h : d.session.Besides s) :
    ∃ d', Meanwhile E d d' ∧ d'.session = s := by
  obtain ⟨m, es, t, o, rfl⟩ := h
  exact ⟨_, ⟨.single (.others (.others m es) t o), rfl, rfl⟩, rfl⟩

theorem meanwhile_link {c : Crowd φ σ ι} (h : Crowd.Step E d.around c) (hc : c.caller = d.others) :
    ∃ d', Meanwhile E d d' ∧ d'.session = { d.session with link := c.link } :=
  ⟨_, ⟨.single (.others h d.session.transport d.session.outlets), rfl, hc⟩, rfl⟩

theorem route_of_stopped (h : Reachable E name args d) (hq : d.Quiet)
    (hr : d.session.link.exchange.routing = false) : d.session.link.route = d.session.link := by
  obtain ⟨k, hk⟩ := accounted_of_reachable h
  have hsound := Crowd.sound_of_reachable hk.reachable
  obtain ⟨hreplies, hnil⟩ := hsound.stopped hr
  have hpending : d.session.link.exchange.pending = [] := by
    refine List.eq_nil_iff_forall_not_mem.2 fun uid hu => ?_
    obtain ⟨i, huid, ho⟩ := hsound.pending_owned uid hu
    cases i with
    | some i => exact absurd ho (Bool.eq_false_iff.1 (hq i))
    | none => exact hsound.cleared none hr (hk.atOnce ho) (huid ▸ hu)
  have hroute := Exchange.route_of_stopped hr hreplies hnil hpending
  rw [Link.route, hroute]

theorem meanwhile_route (h : Reachable E name args d) (hq : d.Quiet) :
    ∃ d', Meanwhile E d d' ∧ d'.session = { d.session with link := d.session.link.route } := by
  cases hr : d.session.link.exchange.routing with
  | true => exact meanwhile_link (.route hr) rfl
  | false =>
    rw [route_of_stopped h hq hr]
    exact ⟨d, .refl d, rfl⟩

theorem meanwhile_routeAll (h : Reachable E name args d) (hq : d.Quiet) :
    ∃ d', Meanwhile E d d' ∧ d'.session = { d.session with link := d.session.link.routeAll } := by
  have hfold : ∀ (ns : List Nat) (d : CallingSession φ σ ω ι), Reachable E name args d → d.Quiet →
      ∃ d', Meanwhile E d d' ∧
        d'.session = { d.session with link := ns.foldl (fun l _ => l.route) d.session.link } := by
    intro ns
    induction ns with
    | nil => exact fun d _ _ => ⟨d, .refl d, rfl⟩
    | cons n ns ih =>
      intro d h hq
      obtain ⟨d₁, hd₁, hs₁⟩ := meanwhile_route h hq
      obtain ⟨d₂, hd₂, hs₂⟩ := ih d₁ (h.run hd₁.run) (hd₁.quiet hq)
      rw [hs₁] at hs₂
      exact ⟨d₂, hd₁.trans hd₂, hs₂⟩
  exact hfold _ d h hq

theorem meanwhile_settle (h : Reachable E name args d) (hq : d.Quiet) :
    ∃ d', Meanwhile E d d' ∧ d'.session = d.session.settle := by
  obtain ⟨d₁, hd₁, hs₁⟩ := meanwhile_routeAll h hq
  have hbesides : d₁.session.Besides d.session.settle := by
    rw [hs₁]
    exact Session.besides_dispatchAll _
  obtain ⟨d₂, hd₂, hs₂⟩ := meanwhile_besides (E := E) hbesides
  exact ⟨d₂, hd₁.trans hd₂, hs₂⟩

/-- A turn of the worker, which hangs up if it is gone. -/
theorem meanwhile_serve (hl : d.session.link.bench.life = .serving) :
    ∃ d', Meanwhile E d d' ∧ d'.session = { d.session with link := d.session.link.serve E } := by
  obtain ⟨d₁, hd₁, hs₁⟩ := meanwhile_link (E := E) (d := d) (.attend false hl) rfl
  rw [Link.serve, Link.turn, Link.hangUpIfGone]
  split
  · exact ⟨d₁, hd₁, hs₁⟩
  · next hgone =>
    have hlink : d₁.session.link = d.session.link.attend E false := congrArg Session.link hs₁
    have hlife : d₁.session.link.bench.life ≠ .serving := by rwa [hlink]
    obtain ⟨d₂, hd₂, hs₂⟩ := meanwhile_link (E := E) (d := d₁) (.hangUp hlife) rfl
    have htakes : d₂.session.link.exchange.takesCalls = false := by rw [hs₂]; rfl
    obtain ⟨d₃, hd₃, hs₃⟩ := meanwhile_link (E := E) (d := d₂) (.close htakes) rfl
    refine ⟨d₃, (hd₁.trans hd₂).trans hd₃, hs₃.trans ?_⟩
    simp only [around, hs₂, hs₁]

/-- Worker and device move if they can, and then router and dispatcher. -/
theorem meanwhile_round (h : Reachable E name args d) (hq : d.Quiet) :
    ∃ d', Meanwhile E d d' ∧ d'.session = (d.session.round E).2 := by
  have hworker : ∃ d', Meanwhile E d d' ∧ d'.session =
      if d.session.link.canServe then { d.session with link := d.session.link.serve E } else d.session := by
    split
    · next hserves =>
      rw [Link.canServe, Bool.and_eq_true, beq_iff_eq] at hserves
      exact meanwhile_serve hserves.1
    · exact ⟨d, .refl d, rfl⟩
  rw [Session.round]
  dsimp only
  obtain ⟨d₁, hd₁, hs₁⟩ := hworker
  rw [← hs₁]
  have hdevice : ∀ b : Bool, d₁.session.Besides
      (if b then { d₁.session with outlets := (d₁.session.outlets.tick d₁.session.memory).1 }.setMemory
        (d₁.session.outlets.tick d₁.session.memory).2 else d₁.session) := by
    intro b
    split
    · exact ⟨_, _, _, _, rfl⟩
    · exact .refl _
  obtain ⟨d₂, hd₂, hs₂⟩ := meanwhile_besides (E := E) (hdevice (!d.session.outlets.isResting d.session.memory))
  rw [← hs₂]
  obtain ⟨d₃, hd₃, hs₃⟩ := meanwhile_settle (h.run (hd₁.trans hd₂).run) ((hd₁.trans hd₂).quiet hq)
  exact ⟨d₃, (hd₁.trans hd₂).trans hd₃, hs₃⟩

/-- A run leads to where the call has come to `c` and the session to `s`, and none of the others is under way. -/
def Leads (E : Engine φ σ) (d : CallingSession φ σ ω ι) (c : Calling) (s : Session φ σ ω) : Prop :=
  ∃ d', ReflTransGen (Step E) d d' ∧ d'.Quiet ∧ d'.calling = c ∧ d'.session = s

section

variable {c c' : Calling} {s s' : Session φ σ ω}

theorem Leads.own (h : Leads E d c s) (expired : Bool) (ht : c.turn expired s = some (c', s')) :
    Leads E d c' s' := by
  obtain ⟨d₁, hrun, hquiet, rfl, rfl⟩ := h
  exact ⟨_, hrun.tail (.own expired ht), hquiet, rfl, rfl⟩

theorem Leads.settle (hd : Reachable E name args d) (h : Leads E d c s) : Leads E d c s.settle := by
  obtain ⟨d₁, hrun, hquiet, hc, rfl⟩ := h
  obtain ⟨d₂, hd₂, hs₂⟩ := meanwhile_settle (hd.run hrun) hquiet
  exact ⟨d₂, hrun.trans hd₂.run, hd₂.quiet hquiet, hd₂.calling_eq.trans hc, hs₂⟩

theorem Leads.round (hd : Reachable E name args d) (h : Leads E d c s) : Leads E d c (s.round E).2 := by
  obtain ⟨d₁, hrun, hquiet, hc, rfl⟩ := h
  obtain ⟨d₂, hd₂, hs₂⟩ := meanwhile_round (hd.run hrun) hquiet
  exact ⟨d₂, hrun.trans hd₂.run, hd₂.quiet hquiet, hd₂.calling_eq.trans hc, hs₂⟩

/-- After the checks a call settles, and goes on step by step; while it waits, the others move. -/
theorem Leads.invoke (hd : Reachable E name args d) {op : Operation} (h : Leads E d (.busy (.look op args)) s)
    {a : Except Error (Option Value)} (hinvoke : s.invoke E op args = (a, s')) (ha : a ≠ .error .disconnected) :
    Leads E d (.done a) s' := by
  rw [Session.invoke] at hinvoke
  rcases hdrive : Session.drive E (fun expired task s => Invocation.turn expired s task) Session.patience
    s.waitRounds (.look op args) s.settle with ⟨answer, s₁⟩
  rw [hdrive] at hinvoke
  cases hinvoke
  cases answer with
  | none => exact absurd rfl ha
  | some a =>
    refine Session.drive_induct (P := fun task s => Leads E d (.busy task) s) (Q := fun a s => Leads E d (.done a) s)
      hdrive (h.settle hd) ?_ ?_ (Leads.round hd)
    · intro b task task' s s' h hturn
      exact (h.own b (by simp only [Calling.turn, hturn])).settle hd
    · intro b task a' s s' h hturn
      exact (h.own b (by simp only [Calling.turn, hturn])).settle hd

end

/-- **A whole call of a session is a run** of the call and those around it, in which the others move while it waits. -/
theorem call_run (h : Reachable E name args d) (hc : d.calling = .named name args) (hq : d.Quiet)
    {a : Except Error (Option Value)} {s : Session φ σ ω} (hcall : d.session.call E name args = (a, s))
    (ha : a ≠ .error .disconnected) : ∃ d', ReflTransGen (Step E) d d' ∧ d'.calling = .done a ∧ d'.session = s := by
  have hbegun : Leads E d (.named name args) d.session := ⟨d, .refl, hq, hc, rfl⟩
  have hleads : Leads E d (.done a) s := by
    rw [Session.call_eq] at hcall
    cases ho : Operation.check name args with
    | error e =>
      rw [ho] at hcall
      cases hcall
      exact hbegun.own false (by rw [Calling.turn, ho])
    | ok op =>
      rw [ho] at hcall
      exact (hbegun.own false (by rw [Calling.turn, ho])).invoke h hcall ha
  obtain ⟨d', hrun, -, hdone, hs⟩ := hleads
  exact ⟨d', hrun, hdone, hs⟩

end CallingSession

/-! ### Commands -/

/-- A command passes the checks of a call by name. -/
theorem Command.check_eq (c : Command) : Operation.check c.operation.name c.arguments = .ok c.operation := by
  rw [Operation.check_of_named rfl, if_pos c.length_arguments]

/-- A command is the call of its operation by name. -/
theorem Session.execute_eq (E : Engine φ σ) (c : Command) (s : Session φ σ ω) :
    s.execute E c = s.call E c.operation.name c.arguments := by
  rw [call_eq, c.check_eq, execute]

/-! ### The answers -/

/-- What a step of a call changes of the session: the queue and the register. -/
theorem Calling.turn_leaves {expired : Bool} {c c' : Calling} {s s' : Session φ σ ω}
    (h : c.turn expired s = some (c', s')) : ∃ x, s' = { s with link.exchange := x } := by
  have hsubmit : ∀ r, ∃ x, (s.link.submit r).2 = { s.link with exchange := x } := by
    intro r
    rcases s.link.submit_split r with ⟨x, hx, -⟩ | ⟨x, hx, -⟩ <;> exact ⟨x, by rw [hx]⟩
  have hinvoked : ∀ {task k}, Invoked s task k s' → ∃ x, s' = { s with link.exchange := x } := by
    intro task k hk
    cases hk with
    | passes => exact ⟨_, rfl⟩
    | @asks op args n uid hu =>
      obtain ⟨x, hx⟩ := hsubmit (.call n op args)
      exact ⟨x, by rw [hx]⟩
    | @cannotAsk op args n e he =>
      obtain ⟨x, hx⟩ := hsubmit (.call n op args)
      exact ⟨x, by rw [hx]⟩
    | answered => exact ⟨_, rfl⟩
  cases c with
  | named name args =>
    rw [turn] at h
    split at h <;> cases h <;> exact ⟨_, rfl⟩
  | busy task =>
    rw [turn] at h
    split at h
    · cases h
    · next ht =>
      cases h
      exact hinvoked (Invocation.turn_cases ht)
    · next ht =>
      cases h
      exact hinvoked (Invocation.ends_cases ht)
  | done a => cases h

namespace CallingSession

variable {name : String} {args : List Value} {d : CallingSession φ σ ω ι}

/-- What a call is answered that is neither refused nor dropped. -/
inductive Replied (d : CallingSession φ σ ω ι) (op : Operation) (args : List Value) (n : Int)
    (a : Except Error (Option Value)) : Prop where
  /-- It has sent one request, and the answer is the only one that the worker has given to it. -/
  | answered {uid : Nat} {reply : Reply} (hs : d.sent = [(uid, .call n op args)])
      (hx : (uid, .call n op args, reply) ∈ d.served) (hu : ∀ r b, (uid, r, b) ∈ d.served → b = reply)
      (ha : a = (Link.outcome op.name reply).map some)
  /-- The worker is gone: it has not taken the request any more, or has not answered it. -/
  | gone (ha : a = .error .disconnected) (hl : d.session.link.bench.life ≠ .serving)
      (hs : d.sent = [] ∧ d.session.link.exchange.takesCalls = false ∨
        ∃ uid, d.sent = [(uid, .call n op args)] ∧ ∀ s ∈ d.served, s.1 ≠ uid)

theorem Replied.ne {op : Operation} {n : Int} {a : Except Error (Option Value)} (h : d.Replied op args n a) :
    a ≠ .ok none ∧ (∀ text, a ≠ .error (.unknownOperation text)) ∧
      ∀ label expected got, a ≠ .error (.arity label expected got) := by
  cases h with
  | @answered uid reply hs hx hu ha =>
    subst ha
    cases reply with
    | ok v => exact ⟨nofun, nofun, nofun⟩
    | error e => exact ⟨nofun, nofun, nofun⟩
  | gone ha =>
    subst ha
    exact ⟨nofun, nofun, nofun⟩

/-- How a call has come to its end. -/
inductive Verdict (name : String) (args : List Value) (d : CallingSession φ σ ω ι) (a : Except Error (Option Value)) :
    Prop where
  | refused {e : Error} (ho : Operation.check name args = .error e) (ha : a = .error e) (hs : d.sent = [])
  | dropped {op : Operation} (ho : Operation.check name args = .ok op) (ha : a = .ok none) (hd : d.Dropped op)
      (hs : d.sent = [])
  | engineless {op : Operation} (ho : Operation.check name args = .ok op) (hd : ¬d.Dropped op)
      (ha : a = .error (.remote op.name "no engine instance")) (hs : d.sent = []) (hn : d.session.number = none)
  | replied {op : Operation} {n : Int} (ho : Operation.check name args = .ok op) (hd : ¬d.Dropped op)
      (hn : d.session.number = some n) (hr : d.Replied op args n a)

section

variable {a : Except Error (Option Value)} {op : Operation}

theorem Verdict.of_unknown (h : Verdict name args d a) (hnone : ∀ op : Operation, op.name ≠ name) :
    a = .error (.unknownOperation name) ∧ d.sent = [] := by
  have hcheck := Operation.check_of_unknown hnone args
  cases h with
  | refused ho ha hs =>
    cases hcheck.symm.trans ho
    exact ⟨ha, hs⟩
  | dropped ho | engineless ho | replied ho => cases hcheck.symm.trans ho

theorem Verdict.of_arity (h : Verdict name args d a) (hop : op.name = name) (hlen : args.length ≠ op.arity) :
    a = .error (.wrongArity op args.length) ∧ d.sent = [] := by
  have hcheck := Operation.check_of_named hop args
  rw [if_neg hlen] at hcheck
  cases h with
  | refused ho ha hs =>
    cases hcheck.symm.trans ho
    exact ⟨ha, hs⟩
  | dropped ho | engineless ho | replied ho => cases hcheck.symm.trans ho

theorem Verdict.of_checked (h : Verdict name args d a) (hop : op.name = name) (hlen : args.length = op.arity) :
    (d.Dropped op ∧ a = .ok none ∧ d.sent = []) ∨
      ¬d.Dropped op ∧ ((d.session.number = none ∧ a = .error (.remote op.name "no engine instance") ∧ d.sent = []) ∨
        ∃ n, d.session.number = some n ∧ d.Replied op args n a) := by
  have hcheck := Operation.check_of_named hop args
  rw [if_pos hlen] at hcheck
  cases h with
  | refused ho => cases hcheck.symm.trans ho
  | dropped ho ha hd hs =>
    cases hcheck.symm.trans ho
    exact .inl ⟨hd, ha, hs⟩
  | engineless ho hd ha hs hn =>
    cases hcheck.symm.trans ho
    exact .inr ⟨hd, .inl ⟨hn, ha, hs⟩⟩
  | replied ho hd hn hr =>
    cases hcheck.symm.trans ho
    exact .inr ⟨hd, .inr ⟨_, hn, hr⟩⟩

/-- A call that has passed the checks is not refused for its name or the number of its arguments. -/
theorem Verdict.ne_of_checked (h : Verdict name args d a) (hop : op.name = name) (hlen : args.length = op.arity) :
    (∀ text, a ≠ .error (.unknownOperation text)) ∧ ∀ label expected got, a ≠ .error (.arity label expected got) := by
  rcases h.of_checked hop hlen with ⟨-, rfl, -⟩ | ⟨-, ⟨-, rfl, -⟩ | ⟨n, -, hr⟩⟩
  · exact ⟨nofun, nofun⟩
  · exact ⟨nofun, nofun⟩
  · exact hr.ne.2

end

variable [DecidableEq ι]

theorem Accounted.verdict {k : Caller} (h : Accounted E name args d k) {a : Except Error (Option Value)}
    (ha : d.calling = .done a) : Verdict name args d a := by
  have hsound := Crowd.sound_of_reachable h.reachable
  cases h.course with
  | named hc | looks hc | enters hc | waits hc | sends hc | asks hc =>
    rw [hc] at ha
    cases ha
  | refused hc ho hd =>
    rw [hc] at ha
    cases ha
    exact .refused ho rfl hd.sent
  | dropped hc ho hd hs =>
    rw [hc] at ha
    cases ha
    exact .dropped ho rfl hd hs
  | engineless hc ho hd hs hn =>
    rw [hc] at ha
    cases ha
    exact .engineless ho hd.not_dropped rfl hs hn
  | unsent hc ho hd hs hn hx =>
    rw [hc] at ha
    cases ha
    exact .replied ho hd.not_dropped hn (.gone rfl (hsound.hung hx).2 (.inl ⟨hs, hx⟩))
  | @answered op n uid reply hc ho hd hs hn hx =>
    rw [hc] at ha
    cases ha
    refine .replied ho hd.not_dropped hn (.answered hs hx (fun r b hb => ?_) rfl)
    have heq := List.inj_on_of_nodup_map hsound.served_once hb hx rfl
    cases heq
    rfl
  | @abandoned op n uid hc ho hd hs hn hx hu =>
    rw [hc] at ha
    cases ha
    exact .replied ho hd.not_dropped hn (.gone rfl (hsound.hung hx).2 (.inr ⟨uid, hs, hu⟩))

/-- **Which call is refused, dropped or sent, and what it is answered.**  Whatever the name and the arguments, and
whatever anybody does before the call, meanwhile and after it:

* its steps change nothing of the session but the queue and the register of the requests;
* it is refused for its name exactly if no operation has it, and otherwise for the number of its arguments exactly if
  this is wrong, and has sent nothing then;
* otherwise it is dropped exactly if it is guarded and found the performance ended or has waited in vain, and has sent
  nothing then; and it is refused without sending anything if there is no engine;
* in all other cases it has sent one request, with this operation and these arguments, and is answered what the worker
  has answered, unless the worker is gone;
* it can come to its end, without anybody else asking for anything;
* a whole call of a session is such a run, unless it is given up as if the worker were gone, and a command is the call
  of its operation by name. -/
theorem call_dispatched (h : Reachable E name args d) :
    (∀ expired c s, d.calling.turn expired d.session = some (c, s) → ∃ x, s = { d.session with link.exchange := x }) ∧
    (∀ a, d.calling = .done a →
      ((∃ text, a = .error (.unknownOperation text)) ↔ ∀ op : Operation, op.name ≠ name) ∧
      ((∀ op : Operation, op.name ≠ name) → a = .error (.unknownOperation name) ∧ d.sent = []) ∧
      ∀ op : Operation, op.name = name →
        ((∃ label expected got, a = .error (.arity label expected got)) ↔ args.length ≠ op.arity) ∧
        (args.length ≠ op.arity → a = .error (.wrongArity op args.length) ∧ d.sent = []) ∧
        (args.length = op.arity →
          (a = .ok none ↔ d.Dropped op) ∧ (d.Dropped op → d.sent = []) ∧
          (¬d.Dropped op → d.session.number = none →
            a = .error (.remote op.name "no engine instance") ∧ d.sent = []) ∧
          (¬d.Dropped op → ∀ n, d.session.number = some n → d.Replied op args n a))) ∧
    Finishes E d ∧
    (d.calling = .named name args → d.Quiet → ∀ a s, d.session.call E name args = (a, s) → a ≠ .error .disconnected →
      ∃ d', ReflTransGen (Step E) d d' ∧ d'.calling = .done a ∧ d'.session = s) ∧
    ∀ (c : Command) (s : Session φ σ ω), s.execute E c = s.call E c.operation.name c.arguments := by
  obtain ⟨k, hk⟩ := accounted_of_reachable h
  refine ⟨fun expired c s => Calling.turn_leaves, fun a ha => ?_, finishes hk,
    fun hc hq a s hcall ha => call_run h hc hq hcall ha, fun c s => s.execute_eq E c⟩
  have hverdict := hk.verdict ha
  refine ⟨⟨?_, fun hnone => ⟨name, (hverdict.of_unknown hnone).1⟩⟩, hverdict.of_unknown, fun op hop => ?_⟩
  · rintro ⟨text, hunknown⟩ op hop
    by_cases hlen : args.length = op.arity
    · exact (hverdict.ne_of_checked hop hlen).1 text hunknown
    · have harity := (hverdict.of_arity hop hlen).1
      rw [hunknown] at harity
      cases harity
  · refine ⟨⟨?_, fun hlen => ⟨_, _, _, (hverdict.of_arity hop hlen).1⟩⟩, hverdict.of_arity hop, fun hlen => ?_⟩
    · rintro ⟨label, expected, got, harity⟩ hlen
      exact (hverdict.ne_of_checked hop hlen).2 label expected got harity
    · rcases hverdict.of_checked hop hlen with ⟨hd, rfl, hs⟩ | ⟨hd, ⟨hn, rfl, hs⟩ | ⟨n, hn, hr⟩⟩
      · exact ⟨iff_of_true rfl hd, fun _ => hs, fun hx => absurd hd hx, fun hx => absurd hd hx⟩
      · refine ⟨iff_of_false nofun hd, fun hx => absurd hx hd, fun _ _ => ⟨rfl, hs⟩, fun _ m hm => ?_⟩
        rw [hn] at hm
        cases hm
      · refine ⟨iff_of_false hr.ne.1 hd, fun hx => absurd hx hd, fun _ hx => ?_, fun _ m hm => ?_⟩
        · rw [hn] at hx
          cases hx
        · rw [hn] at hm
          cases hm
          exact hr

/-- A call of an engine that somebody else has had built is answered what this engine says. -/
theorem call_dispatched_ksmps : ∃ d : CallingSession Unit Sine Unit Unit, Reachable Sine.engine "getKsmps" [] d ∧
    d.calling = .done (.ok (some (.int 32))) ∧ d.Replied .getKsmps [] 1 (.ok (some (.int 32))) := by
  let t : Transport := { io := ⟨0, 0⟩ }
  let o : Outlets Unit := { bus := ⟨{}, ()⟩ }
  have hrun : ∃ d : CallingSession Unit Sine Unit Unit, Reachable Sine.engine "getKsmps" [] d ∧
      d.calling = .done (.ok (some (.int 32))) ∧ d.session.number = some 1 :=
    -- the engine is built; the call is checked, finds the performance stopped, and is sent
    ⟨_, ⟨{ link := { bench := { factory := () } }, transport := t, outlets := o, number := some 1 }, (), {},
      fun _ => (Link.buildLabel, .build {}),
      ((((((((((ReflTransGen.refl.tail (.others (.call () rfl) t o)).tail (.others (.call () rfl) t o)).tail
        (.others (.call () rfl) t o)).tail (.others (.attend false rfl) t o)).tail (.others (.route rfl) t o)).tail
        (.own false rfl)).tail (.own false rfl)).tail (.own false rfl)).tail (.others (.attend false rfl) t o)).tail
        (.others (.route rfl) t o)).tail (.own false rfl)⟩, rfl, rfl⟩
  obtain ⟨d, hd, ha, hn⟩ := hrun
  have hanswer := (((call_dispatched hd).2.1 _ ha).2.2 .getKsmps rfl).2.2 rfl
  have hdropped : ¬d.Dropped .getKsmps := fun h => absurd (hanswer.1.2 h) nofun
  exact ⟨d, hd, ha, hanswer.2.2.2 hdropped 1 hn⟩

end CallingSession

/-- An engine that does not survive its first block; it answers a call with the call. -/
def Engine.fragile : Engine Unit Unit where
  build _ factory := (.ok (), factory)
  start io e := (.ok 0, e, io)
  mode _ := .offline
  perform io e := (.crashed, e, io)
  cleanup io e := (.ok (), e, io)
  reset e := (.ok 0, e)
  call op args e := (.ok (.list (.str op.name :: args)), e)
  drain e := ([], e)

/-- **A call to a worker that is gone** passes all checks and is not dropped, and yet it sends nothing and has no answer
of the worker, although the engine answers every call. -/
theorem CallingSession.call_to_gone_worker :
    ∃ d : CallingSession Unit Unit Unit Bool, Reachable Engine.fragile "lsFs" [] d ∧
    Operation.check "lsFs" [] = .ok .listFiles ∧ ¬d.Dropped .listFiles ∧ d.session.number = some 1 ∧
    d.calling = .done (.error .disconnected) ∧ d.sent = [] ∧ d.session.link.bench.life = .crashed := by
  let t : Transport := { io := ⟨0, 0⟩ }
  let o : Outlets Unit := { bus := ⟨{}, ()⟩ }
  have hrun : ∃ d : CallingSession Unit Unit Unit Bool, Reachable Engine.fragile "lsFs" [] d ∧
      d.session.number = some 1 ∧ d.calling = .done (.error .disconnected) ∧ d.sent = [] ∧ d.session.link.bench.life = .crashed :=
    -- an engine is built, its performance begins, and takes the worker along
    ⟨_, ⟨{ link := { bench := { factory := () } }, transport := t, outlets := o, number := some 1 }, (), {},
      fun begins => if begins then (Link.startLabel, .start 1 ⟨0, 0⟩) else (Link.buildLabel, .build {}),
      ((((((((((((ReflTransGen.refl.tail (.others (.call false rfl) t o)).tail (.others (.call false rfl) t o)).tail
        (.others (.call false rfl) t o)).tail (.others (.attend false rfl) t o)).tail
        (.others (.call true rfl) t o)).tail (.others (.call true rfl) t o)).tail
        (.others (.call true rfl) t o)).tail (.others (.attend false rfl) t o)).tail
        (.others (.attend false rfl) t o)).tail
        (.others (.hangUp (ne_of_eq_of_ne (b := .crashed) rfl nofun)) t o)).tail
        (.own false rfl)).tail (.own false rfl)).tail (.own false rfl)⟩, rfl, rfl, rfl, rfl⟩
  obtain ⟨d, hd, hn, ha, hs, hl⟩ := hrun
  have hdropped : ¬d.Dropped .listFiles := fun h => nomatch h.guarded
  exact ⟨d, hd, rfl, hdropped, hn, ha, hs, hl⟩

end SynthControl
