import SynthControl.Proofs.SharedSession
import SynthControl.Proofs.Correspondence
import SynthControl.Proofs.Dispatching
import SynthControl.Proofs.Lending
import SynthControl.Session.Command

/-!
# Sessions that nobody disturbs

One client has a session to itself, and nothing is performed.  Then its conversations take their shortest course: a
request is sent, the worker serves it in the next round, and the router hands the reply to the client before it looks
for it again.

* `Link.routeAll_idle`, `routeAll_answered` — the router hands on what was answered, and nothing else;
* `Outlets.follow_memory`, `Stage.change_memory` — a device that rests leaves the memory alone when it is told of a
  phase;
* `Session.dispatchAll_induct`, `settle_transport`, `settle_silent`, `settle_begun` — **what the reports of a worker
  that serves come to**: the transport enters the phases among them, and without one memory and device are left alone;
* `Session.Calm`, `Calm.round`, `Answered.told` — nothing but one request is on its way, **what the round makes of it
  that serves it**, and how the client is told;
* `Session.Rests`, `Rests.invoke`, `Rests.start_accepted`, `Rests.start_refused` — **a whole call, and a whole start**,
  of a session in which nothing is performed.
-/

namespace SynthControl

variable {φ σ ω : Type} {E : Engine φ σ}

/-! ### The router -/

namespace Link

variable {l : Link φ σ} {p : Post} {uid : Nat} {a : Reply}

theorem routeAll_idle (h : l.exchange.Bears p) (hp : ∀ uid a, p ≠ .answered uid a) : l.routeAll = l := by
  have hreplies : l.exchange.replies = [] := by
    rw [h.replies]
    cases p with
    | answered uid a => exact absurd rfl (hp uid a)
    | _ => rfl
  have hroute : l.route = l := by rw [route, h.route_idle hp]
  rw [routeAll, hreplies]
  exact hroute

theorem routeAll_answered (h : l.exchange.Bears (.answered uid a)) :
    ∃ x : Exchange Request Reply, l.routeAll = { l with exchange := x } ∧ x.Bears (.told uid a) := by
  have hreplies : l.exchange.replies = [(uid, a)] := h.replies
  obtain ⟨htold, -⟩ := h.route_answered
  refine ⟨l.exchange.route, ?_, htold⟩
  rw [routeAll, hreplies]
  show { l.route with exchange := l.route.exchange.route } = _
  rw [route, htold.route_idle (by simp)]

end Link

/-! ### The device -/

namespace Render.Device

variable {d : Device ω} {m : Memory}

/-- A device that rests, and is told of a phase, leaves the memory alone. -/
theorem follow_memory (h : d.isResting m = true) (p : PlayState) (w : ω) : (d.follow p w m).2.2.2 = m := by
  have hjoin : d.join w m = (d.collect.1, d.collect.2, w, m) := by rw [join, advance_of_isResting h]
  cases p <;> simp only [follow, hjoin]
  cases d.collect.1 <;> rfl

end Render.Device

namespace Outlets

variable {o o' : Outlets ω} {m : Memory}

/-- What happens to the listeners does not wake the device. -/
theorem isResting_congr (h : o'.device = o.device) (m : Memory) : o'.isResting m = o.isResting m := by
  rw [isResting, isResting, h]

theorem isResting_configure (h : o.isResting m = true) (p : Parameters) : (o.configure p).2.isResting m = true := by
  rw [configure]
  cases hd : o.device with
  | none => exact h
  | some d =>
    rw [isResting, hd] at h
    dsimp only [Render.Device.configure]
    split <;> exact h

theorem follow_memory (h : o.isResting m = true) (p : PlayState) : (o.follow p m).2.2 = m := by
  rw [isResting] at h
  rw [follow]
  split
  · rfl
  · next d hd =>
    rw [hd] at h
    exact Render.Device.follow_memory h p o.world

end Outlets

/-- A phase that is no end leaves the memory alone, if the device rests. -/
theorem Stage.change_memory {s : Stage (Outlets ω)} {p : PlayState} (hp : p.isEnded = false)
    (h : s.around.isResting s.memory = true) : (s.change Outlets.surroundings p).memory = s.memory := by
  have htold : ∀ o : Outlets ω, o.device = s.around.device → (o.follow p s.memory).2.2 = s.memory :=
    fun o ho => Outlets.follow_memory ((Outlets.isResting_congr ho s.memory).trans h) p
  cases p with
  | realtimeEnded | renderEnded => cases hp
  | stopped => exact htold s.around rfl
  | realtimePaused | realtimeResumed | renderStarted => exact htold (s.around.emit (.state _)) rfl
  | realtimeStarted =>
    -- the device is configured first, and the listeners are told
    have hconfigured := Outlets.isResting_configure h (.ofRegion s.region s.transport.io)
    exact Outlets.follow_memory
      (o := (s.around.configure (.ofRegion s.region s.transport.io)).2.emit (.state .realtimeStarted)) hconfigured
      .realtimeStarted

/-! ### The dispatcher -/

namespace Session

variable {s s' : Session φ σ ω}

/-- What every turn of the dispatcher keeps holds after it has handed on everything. -/
theorem dispatchAll_induct {P : Session φ σ ω → Prop} (h : P s) (hstep : ∀ {s}, P s → P s.dispatch) :
    P s.dispatchAll := by
  have hfold : ∀ (ns : List Nat) (s : Session φ σ ω), P s → P (ns.foldl (fun s _ => s.dispatch) s) := by
    intro ns
    induction ns with
    | nil => exact fun _ => id
    | cons n ns ih => exact fun s h => ih s.dispatch (hstep h)
  exact hfold _ s h

/-- The oldest report is handed on first, and then the others. -/
theorem dispatchAll_cons {e : Event} {es : List Event} (hr : s.link.bench.reports = e :: es) :
    s.dispatchAll = s.dispatch.dispatchAll := by
  rw [dispatchAll, dispatchAll, List.foldl_const, List.foldl_const, List.length_range, List.length_range,
    reports_dispatch, hr]
  rfl

/-- What router and dispatcher do not touch. -/
theorem settle_frame (s : Session φ σ ω) :
    s.settle.link.bench.hosted = s.link.bench.hosted ∧ s.settle.link.bench.number = s.link.bench.number ∧
      s.settle.link.bench.life = s.link.bench.life ∧ s.settle.number = s.number := by
  obtain ⟨m, es, t, o, h⟩ := besides_dispatchAll { s with link := s.link.routeAll }
  rw [settle, h]
  dsimp only
  rw [s.link.routeAll_takesCalls.2]
  exact ⟨rfl, rfl, rfl, rfl⟩

/-- What is on its way is the business of the router alone. -/
theorem settle_exchange (s : Session φ σ ω) : s.settle.link.exchange = s.link.routeAll.exchange := by
  obtain ⟨m, es, t, o, h⟩ := besides_dispatchAll { s with link := s.link.routeAll }
  rw [settle, h]

theorem dispatch_life (s : Session φ σ ω) : s.dispatch.link.bench.life = s.link.bench.life := by
  obtain ⟨m, es, t, o, h⟩ := besides_dispatch s
  rw [h]

/-- A phase that is handed on is entered, and while the worker serves nothing else happens to the transport. -/
theorem dispatch_transport (hl : s.link.bench.life = .serving) :
    (phases s.dispatch.link.bench.reports).foldl (fun t p => t.enter p) s.dispatch.transport =
      (phases s.link.bench.reports).foldl (fun t p => t.enter p) s.transport := by
  rw [reports_dispatch, dispatch]
  split
  · next p es hr =>
    rw [hr, phases_state, List.foldl_cons]
    have hentered : (s.popReport.change p).transport = s.transport.enter p := Stage.change_transport _ p _
    rw [hentered]
    rfl
  · next line es hr =>
    rw [hr]
    rfl
  · next hr =>
    rw [hr, workerGone, hl]
    rfl

/-- Without a phase there is nothing for memory and device. -/
theorem dispatch_silent (hl : s.link.bench.life = .serving) (hp : phases s.link.bench.reports = []) :
    phases s.dispatch.link.bench.reports = [] ∧ s.dispatch.memory = s.memory ∧
      s.dispatch.outlets.device = s.outlets.device := by
  rw [reports_dispatch, dispatch]
  split
  · next p es hr =>
    rw [hr] at hp
    cases hp
  · next line es hr =>
    rw [hr] at hp ⊢
    exact ⟨hp, rfl, rfl⟩
  · next hr =>
    rw [hr, workerGone, hl]
    exact ⟨rfl, rfl, rfl⟩

theorem dispatchAll_silent (hl : s.link.bench.life = .serving) (hp : phases s.link.bench.reports = []) :
    s.dispatchAll.memory = s.memory ∧ s.dispatchAll.outlets.device = s.outlets.device := by
  have hkept := dispatchAll_induct (P := fun s' => s'.link.bench.life = .serving ∧
      phases s'.link.bench.reports = [] ∧ s'.memory = s.memory ∧ s'.outlets.device = s.outlets.device)
    ⟨hl, hp, rfl, rfl⟩ fun h => by
      obtain ⟨hsilent, hmemory, hdevice⟩ := dispatch_silent h.1 h.2.1
      exact ⟨(dispatch_life _).trans h.1, hsilent, hmemory.trans h.2.2.1, hdevice.trans h.2.2.2⟩
  exact hkept.2.2

/-- **What has been reported is handed on**: the transport enters the phases.  If there is none, memory and device are
left alone; a single one that is no end leaves the memory alone, if the device rests. -/
theorem settle_transport (hl : s.link.bench.life = .serving) :
    s.settle.transport = (phases s.link.bench.reports).foldl (fun t p => t.enter p) s.transport := by
  have hbench : s.link.routeAll.bench = s.link.bench := s.link.routeAll_takesCalls.2
  have hkept := dispatchAll_induct (s := { s with link := s.link.routeAll })
    (P := fun s' => s'.link.bench.life = .serving ∧
      (phases s'.link.bench.reports).foldl (fun t p => t.enter p) s'.transport =
        (phases s.link.bench.reports).foldl (fun t p => t.enter p) s.transport)
    (by rw [hbench]; exact ⟨hl, rfl⟩)
    fun h => ⟨(dispatch_life _).trans h.1, (dispatch_transport h.1).trans h.2⟩
  have hall : (phases s.settle.link.bench.reports).foldl (fun t p => t.enter p) s.settle.transport = _ := hkept.2
  rwa [reports_settle] at hall

theorem settle_silent (hl : s.link.bench.life = .serving) (hp : phases s.link.bench.reports = []) :
    s.settle.transport = s.transport ∧ s.settle.memory = s.memory ∧ s.settle.outlets.device = s.outlets.device := by
  have hbench : s.link.routeAll.bench = s.link.bench := s.link.routeAll_takesCalls.2
  have htransport := settle_transport hl
  rw [hp] at htransport
  have hsilent := dispatchAll_silent (s := { s with link := s.link.routeAll }) (by rwa [hbench]) (by rwa [hbench])
  have hmemory : Session.memory { s with link := s.link.routeAll } = s.memory := congrArg Bench.memory hbench
  rw [hmemory] at hsilent
  exact ⟨htransport, hsilent⟩

theorem settle_begun {p : PlayState} {es : List Event} (hl : s.link.bench.life = .serving)
    (hr : s.link.bench.reports = .state p :: es) (hes : phases es = []) (hp : p.isEnded = false)
    (hd : s.outlets.isResting s.memory = true) :
    s.settle.transport = s.transport.enter p ∧ s.settle.memory = s.memory := by
  have hbench : s.link.routeAll.bench = s.link.bench := s.link.routeAll_takesCalls.2
  let s₁ : Session φ σ ω := { s with link := s.link.routeAll }
  have hmemory : s₁.memory = s.memory := congrArg Bench.memory hbench
  have hreports : s₁.link.bench.reports = .state p :: es := hr ▸ congrArg Bench.reports hbench
  have hdispatch : s₁.dispatch = s₁.popReport.change p := by rw [dispatch, hreports]
  have hchanged : s₁.dispatch.memory = s.memory := by
    rw [hdispatch, ← hmemory]
    refine Stage.change_memory (s := s₁.popReport.stage) hp ?_
    show s.outlets.isResting s₁.memory = true
    rw [hmemory, hd]
  have htransport := settle_transport hl
  rw [hr, phases_state, hes] at htransport
  refine ⟨htransport, ?_⟩
  show s₁.dispatchAll.memory = _
  rw [dispatchAll_cons hreports, ← hchanged]
  refine (dispatchAll_silent ?_ ?_).1
  · rw [dispatch_life]
    exact (congrArg Bench.life hbench).trans hl
  · rw [reports_dispatch, hreports]
    exact hes

/-- The callbacks of the device are held to what they were held to. -/
theorem settle_keep (s : Session φ σ ω) : s.outlets.Keep Io.SameCourse → s.settle.outlets.Keep Io.SameCourse := by
  intro h
  refine dispatchAll_induct (s := { s with link := s.link.routeAll }) (P := fun s' => s'.outlets.Keep Io.SameCourse) h
    fun {s'} h => ?_
  rw [dispatch]
  split
  · exact (Stage.change_keeps Render.course_law _ (s := s'.popReport.stage) h).2
  · exact h
  · split <;> exact h

/-! ### One request -/

/-- The worker serves, and nothing is on its way but the one request of the client. -/
structure Calm (s : Session φ σ ω) (p : Post) : Prop where
  bears : s.link.exchange.Bears p
  life : s.link.bench.life = .serving
  reports : s.link.bench.reports = []

/-- The worker serves and has answered the one request; nobody was told yet. -/
structure Answered (s : Session φ σ ω) (uid : Nat) (a : Reply) : Prop where
  bears : s.link.exchange.Bears (.answered uid a)
  life : s.link.bench.life = .serving

namespace Calm

variable {p : Post} {uid : Nat} {a : Reply} {r : Request}

/-- Router and dispatcher have nothing to do. -/
theorem settle (h : s.Calm p) (hp : ∀ uid a, p ≠ .answered uid a) : s.settle = s := by
  have hserves : s.workerGone = false := by rw [workerGone, h.life]; rfl
  have hdispatch : s.dispatch = s := by
    rw [dispatch, h.reports]
    dsimp only
    rw [hserves]
    rfl
  rw [Session.settle, Link.routeAll_idle h.bears hp, dispatchAll, h.reports]
  exact hdispatch

theorem settle_empty (h : s.Calm .empty) : s.settle = s := h.settle (by simp)

theorem settle_asked (h : s.Calm (.asked uid r)) : s.settle = s := h.settle (by simp)

theorem settle_told (h : s.Calm (.told uid a)) : s.settle = s := h.settle (by simp)

/-- The client sends a request. -/
theorem submit (h : s.Calm .empty) (r : Request) :
    ∃ uid x, s.link.submit r = (.ok uid, { s.link with exchange := x }) ∧
      Calm { s with link := { s.link with exchange := x } } (.asked uid r) := by
  obtain ⟨x, hsubmit, hbears, -⟩ := Link.submit_bears h.bears r
  exact ⟨_, x, hsubmit, hbears, h.life, h.reports⟩

/-- Once the client was told, nothing is on its way. -/
theorem collected (h : s.Calm (.told uid a)) : s.Calm .empty := ⟨h.bears.collected, h.life, h.reports⟩

/-- The client goes on, and with it the transport. -/
theorem withTransport (h : s.Calm p) (t : Transport) : Calm { s with transport := t } p :=
  ⟨h.bears, h.life, h.reports⟩

/-- **A request is served in the next round.** -/
theorem round {b : Bench φ σ} (h : s.Calm (.asked uid r)) (hd : s.outlets.isResting s.memory = true)
    (hr : s.link.bench.handle E r = (some a, b)) (hb : b.life = .serving) :
    ∃ x, s.round E = (true, { s with link := { s.link with bench := b, exchange := x } }.settle) ∧
      Answered { s with link := { s.link with bench := b, exchange := x } } uid a := by
  obtain ⟨x, hturn, hanswered, -⟩ := Link.turn_asked false h.bears h.life hr hb
  have hserves : s.link.canServe = true := by
    have hcalls : s.link.exchange.calls = [(uid, r)] := h.bears.calls
    rw [Link.canServe, h.life, hcalls]
    rfl
  refine ⟨x, ?_, hanswered, hb⟩
  rw [Session.round]
  dsimp only
  rw [hserves, hd, if_pos rfl, Link.serve, hturn]
  rfl

end Calm

/-- **The reply is handed to the client**, and what the worker has reported is handed on. -/
theorem Answered.told {uid : Nat} {a : Reply} (h : s.Answered uid a) :
    s.settle.Calm (.told uid a) ∧ s.settle.link.bench.hosted = s.link.bench.hosted ∧
      s.settle.link.bench.number = s.link.bench.number ∧ s.settle.number = s.number ∧
      (s.outlets.Keep Io.SameCourse → s.settle.outlets.Keep Io.SameCourse) := by
  obtain ⟨x, hroute, htold⟩ := Link.routeAll_answered h.bears
  obtain ⟨hhosted, hbenchNumber, hlife, hnumber⟩ := s.settle_frame
  refine ⟨⟨?_, hlife.trans h.life, reports_settle s⟩, hhosted, hbenchNumber, hnumber, s.settle_keep⟩
  rw [s.settle_exchange, hroute]
  exact htold

/-! ### The steps of the client -/

section

variable {τ α : Type} {turn : Bool → τ → Session φ σ ω → Turn τ α (Session φ σ ω)} {patience wait : Nat} {task task' : τ}

theorem drive_goesOn (ht : turn (wait == 0) task s = .goesOn task' s') :
    drive E turn (patience + 1) wait task s = drive E turn patience wait task' s'.settle := by rw [drive, ht]

theorem drive_ends {a : α} (ht : turn (wait == 0) task s = .ends a s') :
    drive E turn (patience + 1) wait task s = (some a, s'.settle) := by rw [drive, ht]

theorem drive_blocked (ht : turn (wait == 0) task s = .blocked) (hr : s.round E = (true, s')) :
    drive E turn (patience + 1) wait task s = drive E turn patience (wait - 1) task s' := by rw [drive, ht, hr]

end

/-! ### Whole conversations -/

/-- Nothing is performed, nothing is on its way, and the device has no loop that could move. -/
structure Rests (s : Session φ σ ω) (e : σ) : Prop where
  calm : s.Calm .empty
  device : ∀ m, s.outlets.isResting m = true
  hosted : s.link.bench.hosted = some ⟨e, none⟩
  number : s.number = some s.link.bench.number
  playState : s.playState = .stopped
  connected : s.transport.disconnected = false

namespace Rests

variable {e e' : σ} {op : Operation} {args : List Value} {v : Value}

theorem settle (h : s.Rests e) : s.settle = s := h.calm.settle_empty

theorem active?_eq (h : s.Rests e) : s.link.bench.active? = none := by
  rw [Bench.active?, h.hosted]
  rfl

theorem engine?_eq (h : s.Rests e) : s.link.bench.engine? s.link.bench.number = .ok e := by
  rw [Bench.engine?, if_pos rfl, h.hosted]

/-- The worker executes an operation, and reports what the engine has printed. -/
theorem handle_call (h : s.Rests e) (hcall : E.call op args e = (.ok v, e')) :
    s.link.bench.handle E (.call s.link.bench.number op args) = (some (.ok v), { s.link.bench with
      hosted := some ⟨(E.drain e').2, none⟩
      reports := (E.drain e').1.map .message }) := by
  simp only [Bench.handle, Bench.call, h.engine?_eq, hcall, Bench.respond, Bench.forward, Bench.setEngine, h.active?_eq,
    h.calm.reports, List.nil_append]

/-- **A whole call** is answered what the engine answers, and leaves the session at rest. -/
theorem invoke (h : s.Rests e) (hcall : E.call op args e = (.ok v, e')) :
    ∃ s', s.invoke E op args = (.ok (some v), s') ∧ s'.Rests (E.drain e').2 ∧ s'.transport = s.transport ∧
      s'.memory = s.memory ∧ s'.outlets.device = s.outlets.device := by
  obtain ⟨uid, x, hsubmit, hasked⟩ := h.calm.submit (.call s.link.bench.number op args)
  obtain ⟨y, hround, hanswered⟩ := hasked.round (h.device _) (h.handle_call hcall) h.calm.life
  obtain ⟨htransport, hmemory, hdevice⟩ := settle_silent hanswered.life (phases_map_message _)
  obtain ⟨htold, hhosted, hbenchNumber, hnumber, -⟩ := hanswered.told
  generalize Session.settle _ = s' at *
  have hlook (expired : Bool) : Invocation.turn expired s (.look op args) = .goesOn (.send op args) s := by
    have hactive : s.playState.isActive = false := by rw [h.playState]; rfl
    have hended : s.playState.isEnded = false := by rw [h.playState]; rfl
    rw [Invocation.turn]
    split
    · rfl
    · rw [hactive, hended]
      rfl
  have hsend (expired : Bool) : Invocation.turn expired s (.send op args) =
      .goesOn (.awaitReply op uid) { s with link := { s.link with exchange := x } } := by
    rw [Invocation.turn, h.number]
    dsimp only
    rw [hsubmit]
  have hwaits (expired : Bool) : Invocation.turn expired { s with link := { s.link with exchange := x } }
      (.awaitReply op uid) = .blocked := by
    rw [Invocation.turn, Link.collect_waiting hasked.bears (.inl ⟨_, rfl⟩)]
  have hends (expired : Bool) : Invocation.turn expired s' (.awaitReply op uid) = .ends (.ok (some v)) s' := by
    rw [Invocation.turn, Link.collect_told htold.bears]
    rfl
  have hpatience : patience = 9999996 + 4 := rfl
  refine ⟨s', ?_, ⟨htold.collected, ?_, hhosted, ?_, ?_, ?_⟩, htransport, hmemory, hdevice⟩
  · rw [Session.invoke, h.settle, hpatience, drive_goesOn (hlook _), h.settle, drive_goesOn (hsend _),
      hasked.settle_asked, drive_blocked (hwaits _) hround, drive_ends (hends _), htold.settle_told]
    rfl
  · exact fun m => (Outlets.isResting_congr hdevice m).trans (h.device m)
  · rw [hnumber, hbenchNumber]
    exact h.number
  · rw [Session.playState, htransport]
    exact h.playState
  · rw [htransport]
    exact h.connected

/-- A start is asked for, and answered. -/
theorem ask_start (h : s.Rests e) {b : Bench φ σ}
    (hhandle : s.link.bench.handle E (.start s.link.bench.number s.transport.io) = (some (.ok v), b))
    (hlife : b.life = .serving) :
    ∃ c t uid x, s.transport.armStart = (.ok c, t) ∧
      Answered { s with transport := t, link := { s.link with bench := b, exchange := x } } uid (.ok v) ∧
      ∀ n, drive E (fun _ task s => Lifecycle.turn s task) (n + 3) 0 .arm s =
        drive E (fun _ task s => Lifecycle.turn s task) n 0 (.awaitStart c uid)
          { s with transport := t, link := { s.link with bench := b, exchange := x } }.settle := by
  obtain ⟨c, t, harm⟩ : ∃ c t, s.transport.armStart = (.ok c, t) := by
    rw [Transport.armStart, h.connected]
    exact ⟨_, _, rfl⟩
  rw [← Transport.armStart_io harm] at hhandle
  have harmed := h.calm.withTransport t
  obtain ⟨uid, x, hsubmit, hasked⟩ := harmed.submit (.start s.link.bench.number t.io)
  obtain ⟨y, hround, hanswered⟩ := hasked.round (h.device _) hhandle hlife
  have harms : Lifecycle.turn s .arm =
      .goesOn (.sendStart s.link.bench.number c t.io) { s with transport := t } := by
    rw [Lifecycle.turn, h.number, harm]
  have hsends : Lifecycle.turn { s with transport := t } (.sendStart s.link.bench.number c t.io) =
      .goesOn (.awaitStart c uid) { s with transport := t, link := { s.link with exchange := x } } := by
    rw [Lifecycle.turn, hsubmit]
  have hwaits : Lifecycle.turn { s with transport := t, link := { s.link with exchange := x } } (.awaitStart c uid) =
      .blocked := by
    rw [Lifecycle.turn, Link.collect_waiting hasked.bears (.inl ⟨_, rfl⟩)]
  refine ⟨c, t, uid, y, harm, hanswered, fun n => ?_⟩
  rw [drive_goesOn harms, harmed.settle_empty, drive_goesOn hsends, hasked.settle_asked, drive_blocked hwaits hround]

section

variable {status : Int} {left : Io}

/-- **A start that the engine accepts** answers zero once its phase was entered. -/
theorem start_accepted (h : s.Rests e) (hs : E.start (s.memory.io s.transport.io) e = (.ok 0, e', left)) :
    ∃ s', s.start E = (.ok 0, s') ∧ s'.playState = (E.mode e').started ∧ s'.Calm .empty ∧
      s'.link.bench.hosted = some ⟨(E.drain e').2, some ⟨s.transport.io, E.mode e'⟩⟩ ∧
      s'.memory = Bench.memoryBegun s.memory s.transport.io left (E.mode e') ∧
      (s.outlets.Keep Io.SameCourse → s'.outlets.Keep Io.SameCourse) := by
  have hhandle : s.link.bench.handle E (.start s.link.bench.number s.transport.io) =
      (some (.ok (.int 0)), { s.link.bench with
        hosted := some ⟨(E.drain e').2, some ⟨s.transport.io, E.mode e'⟩⟩
        memory := Bench.memoryBegun s.memory s.transport.io left (E.mode e')
        reports := .state (E.mode e').started :: (E.drain e').1.map .message }) := by
    rw [Bench.handle, Bench.start_of_accepted h.hosted hs]
    simp only [Bench.respond, Bench.forward, h.calm.reports]
    rfl
  obtain ⟨c, t, uid, x, harm, hanswered, hdrive⟩ := h.ask_start hhandle h.calm.life
  obtain ⟨-, hopened, hsignal⟩ := Transport.armStart_ok harm
  have hstarted : (E.mode e').started.isEnded = false := by cases E.mode e' <;> rfl
  obtain ⟨hentered, hmemory⟩ := settle_begun hanswered.life rfl (phases_map_message _) hstarted (h.device _)
  obtain ⟨htold, hhosted, -, -, hkeep⟩ := hanswered.told
  generalize Session.settle _ = s' at *
  have hlooked : Lifecycle.turn s' (.awaitStart c uid) = .goesOn (.awaitStarted 0 c) s' := by
    rw [Lifecycle.turn, Link.collect_told htold.bears]
    rfl
  have hresolved : s'.transport.completions.take c = (.resolved (E.mode e').started,
      (s'.transport.completions.take c).2) := by
    rw [Completions.take, hentered, Transport.look_enter_armed _ hsignal hopened]
  have hends : Lifecycle.turn s' (.awaitStarted 0 c) = .ends (.ok 0)
      { s' with transport := { s'.transport with completions := (s'.transport.completions.take c).2 } } := by
    rw [Lifecycle.turn, Lifecycle.look, hresolved]
  have hpatience : patience = 9999995 + 1 + 1 + 3 := rfl
  refine ⟨{ s' with transport := { s'.transport with completions := (s'.transport.completions.take c).2 } }, ?_, ?_,
    htold.collected.withTransport _, hhosted, hmemory, hkeep⟩
  · rw [start, converse, h.settle, hpatience, hdrive, drive_goesOn hlooked, htold.settle_told, drive_ends hends,
      (htold.withTransport _).settle_told]
    rfl
  · show s'.transport.current = _
    rw [hentered, Transport.enter_current]

/-- **A start that the engine refuses** answers its status, and nothing is performed. -/
theorem start_refused (h : s.Rests e) (hs : E.start (s.memory.io s.transport.io) e = (.ok status, e', left))
    (hstatus : Value.asStatus (.int status) ≠ 0) :
    ∃ s', s.start E = (.ok (Value.asStatus (.int status)), s') ∧ s'.playState = .stopped ∧
      s'.link.bench.hosted = some ⟨(E.drain e').2, none⟩ := by
  have hhandle : s.link.bench.handle E (.start s.link.bench.number s.transport.io) =
      (some (.ok (.int status)), { s.link.bench with
        hosted := some ⟨(E.drain e').2, none⟩
        memory := s.memory.setIo s.transport.io left
        reports := (E.drain e').1.map .message }) := by
    have hzero : status ≠ 0 := fun h0 => hstatus (by rw [h0]; rfl)
    rw [Bench.handle, Bench.start_of_refused h.hosted hs hzero]
    simp only [Bench.respond, Bench.forward, h.calm.reports]
    rfl
  obtain ⟨c, t, uid, x, harm, hanswered, hdrive⟩ := h.ask_start hhandle h.calm.life
  obtain ⟨hentered, -, -⟩ := settle_silent hanswered.life (phases_map_message _)
  obtain ⟨htold, hhosted, -⟩ := hanswered.told
  generalize Session.settle _ = s' at *
  have hlooked : Lifecycle.turn s' (.awaitStart c uid) =
      .goesOn (.disarm (.ok (Value.asStatus (.int status)))) s' := by
    rw [Lifecycle.turn, Link.collect_told htold.bears]
    exact if_neg hstatus
  have hends : Lifecycle.turn s' (.disarm (.ok (Value.asStatus (.int status)))) =
      .ends (.ok (Value.asStatus (.int status))) { s' with transport := s'.transport.dropStart } := rfl
  have hpatience : patience = 9999995 + 1 + 1 + 3 := rfl
  refine ⟨{ s' with transport := s'.transport.dropStart }, ?_, ?_, hhosted⟩
  · rw [start, converse, h.settle, hpatience, hdrive, drive_goesOn hlooked, htold.settle_told, drive_ends hends,
      (htold.withTransport _).settle_told]
    rfl
  · show s'.transport.dropStart.current = _
    rw [Transport.dropStart_current, hentered]
    exact (Transport.armStart_ok harm).1.trans h.playState

end

end Rests
end Session
end SynthControl
