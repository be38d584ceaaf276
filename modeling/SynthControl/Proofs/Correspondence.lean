import SynthControl.Proofs.Completions
import SynthControl.Proofs.Counterparts
import SynthControl.Session.Basic

/-!
# Sessions that are alike

Two sessions without a device whose workers are alike.  The transport of the first has handed out completions
before, and its region comes after others; apart from that the two stand at the same place.  What is on its way to
the worker and back is one request at most.

* `Transport.Like`, `Session.Like` — alike but for what was handed out before; `Session.Like.change`, `pause`,
  `resume`, `requestStop`, `renew`, `sendMidi` — **what is done with both keeps them alike**;
* `Session.Like.dispatch`, `dispatch_old` — the dispatcher of both, and of the first while it has old lines;
* `Post`, `Exchange.Bears` — where the one request is that a client may have made; `submit_bears`, `turn_asked`,
  `route_answered`, `collect_told` — it goes to the worker, is answered, and comes back.
-/

namespace SynthControl

/-! ### The transport -/

/-- From its completion `κ` on, one transport has the completions of another, and waits for the same ones of
these; its region is `ρ` further on. -/
structure Transport.Like (ρ κ : Nat) (t' t : Transport) : Prop where
  current : t'.current = t.current
  io : t'.io = t.io.shift ρ
  bank : t.io.bank = 0
  size : t'.completions.size = κ + t.completions.size
  look : ∀ c, t'.completions.look (κ + c) = t.completions.look c
  start : ∀ c, t'.startSignal = some (κ + c) ↔ t.startSignal = some c
  stop : ∀ c, t'.stopSignal = some (κ + c) ↔ t.stopSignal = some c
  issued : ∀ c, t.stopSignal = some c → c < t.completions.size
  connected' : t'.disconnected = false
  connected : t.disconnected = false

namespace Transport.Like

variable {ρ κ : Nat} {t' t : Transport}

theorem dropStart (h : Like ρ κ t' t) : Like ρ κ t'.dropStart t.dropStart := by
  refine ⟨?_, ?_, ?_, ?_, fun c => ?_, ?_, ?_, ?_, ?_, ?_⟩
  · simpa using h.current
  · simpa using h.io
  · simpa using h.bank
  · rw [size_dropStart, size_dropStart, h.size]
  · rw [look_dropStart, look_dropStart, h.look]
    simp only [h.start]
  · simp
  · simpa using h.stop
  · simpa [size_dropStart] using h.issued
  · simpa using h.connected'
  · simpa using h.connected

theorem dropStop (h : Like ρ κ t' t) : Like ρ κ t'.dropStop t.dropStop := by
  refine ⟨?_, ?_, ?_, ?_, fun c => ?_, ?_, ?_, ?_, ?_, ?_⟩
  · simpa using h.current
  · simpa using h.io
  · simpa using h.bank
  · rw [size_dropStop, size_dropStop, h.size]
  · rw [look_dropStop, look_dropStop, h.look]
    simp only [h.stop]
  · simpa using h.start
  · simp
  · simp
  · simpa using h.connected'
  · simpa using h.connected

theorem enter (h : Like ρ κ t' t) (p : PlayState) : Like ρ κ (t'.enter p) (t.enter p) := by
  obtain ⟨hstop', hopen', hsize'⟩ := enter_frame t' p
  obtain ⟨hstop, hopen, hsize⟩ := enter_frame t p
  refine ⟨?_, ?_, ?_, ?_, fun c => ?_, ?_, fun c => ?_, fun c => ?_, ?_, ?_⟩
  · rw [enter_current, enter_current]
  · rw [enter_io, enter_io, h.io]
  · rw [enter_io, h.bank]
  · rw [hsize', hsize, h.size]
  · rw [look_enter, look_enter, h.look]
    simp only [h.start, h.stop]
  · simp [enter_startSignal]
  · rw [hstop', hstop]
    split
    · simp
    · exact h.stop c
  · rw [hstop, hsize]
    split
    · simp
    · exact h.issued c
  · rw [hopen', h.connected']
  · rw [hopen, h.connected]

/-- A completion is handed out by both. -/
theorem issue (h : Like ρ κ t' t) :
    t'.completions.issue.1 = κ + t.completions.issue.1 ∧
      Like ρ κ { t' with completions := t'.completions.issue.2 } { t with completions := t.completions.issue.2 } := by
  refine ⟨h.size, h.current, h.io, h.bank, ?_, fun c => ?_, h.start, h.stop, fun c hc => ?_, h.connected', h.connected⟩
  · rw [Completions.size_issue, Completions.size_issue, h.size]
    omega
  · rw [Completions.look_issue_eq, Completions.look_issue_eq, h.look, h.size]
    simp only [Nat.add_left_cancel_iff]
  · rw [Completions.size_issue]
    exact Nat.lt_succ_of_lt (h.issued c hc)

theorem take (h : Like ρ κ t' t) (c : Nat) :
    Like ρ κ { t' with completions := (t'.completions.take (κ + c)).2 }
      { t with completions := (t.completions.take c).2 } := by
  refine ⟨h.current, h.io, h.bank, ?_, fun i => ?_, h.start, h.stop, fun i hi => ?_, h.connected', h.connected⟩
  · rw [Completions.size_take, Completions.size_take, h.size]
  · rw [Completions.look_take, Completions.look_take, h.look]
    simp only [Nat.add_left_cancel_iff]
  · rw [Completions.size_take]
    exact h.issued i hi

theorem armStart (h : Like ρ κ t' t) :
    ∃ c t₁' t₁, t'.armStart = (.ok (κ + c), t₁') ∧ t.armStart = (.ok c, t₁) ∧ Like ρ κ t₁' t₁ := by
  obtain ⟨hc, hlike⟩ := h.dropStart.issue
  rw [Transport.armStart, Transport.armStart, h.connected, h.connected', if_neg Bool.false_ne_true,
    if_neg Bool.false_ne_true]
  dsimp only
  rw [hc]
  refine ⟨_, _, _, rfl, rfl, hlike.current, hlike.io, hlike.bank, hlike.size, hlike.look, fun c => ?_, hlike.stop,
    hlike.issued, hlike.connected', hlike.connected⟩
  simp only [Option.some.injEq, Nat.add_left_cancel_iff]

theorem armStop (h : Like ρ κ t' t) : t'.armStop.1 = κ + t.armStop.1 ∧ Like ρ κ t'.armStop.2 t.armStop.2 := by
  obtain ⟨hc, hlike⟩ := h.dropStop.issue
  rw [Transport.armStop, Transport.armStop]
  dsimp only
  rw [hc]
  refine ⟨rfl, hlike.current, hlike.io, hlike.bank, hlike.size, hlike.look, hlike.start, fun c => ?_, fun c hc => ?_,
    hlike.connected', hlike.connected⟩
  · simp only [Option.some.injEq, Nat.add_left_cancel_iff]
  · obtain rfl := Option.some.inj hc
    rw [Completions.size_issue]
    exact Nat.lt_succ_self _

end Transport.Like

/-! ### The session -/

/-- Two sessions without a device that are alike, apart from what is on its way to the worker and back. -/
structure Session.Like {ω : Type} (config : Config) (ρ κ : Nat) (old : List String) (heard : Bool)
    (s' s : Session Unit Sine ω) : Prop where
  bench : Bench.Like config ρ old heard s'.link.bench s.link.bench
  transport : Transport.Like ρ κ s'.transport s.transport
  device' : s'.outlets.device = none
  device : s.outlets.device = none
  number' : s'.number = some 1
  number : s.number = some 1

namespace Session.Like

variable {ω : Type} {config : Config} {ρ κ : Nat} {old : List String} {heard : Bool} {s' s : Session Unit Sine ω}

theorem playState (h : Like config ρ κ old heard s' s) : s'.playState = s.playState := h.transport.current

theorem memory (h : Like config ρ κ old heard s' s) : Memory.Like config.buffers ρ heard s'.memory s.memory :=
  h.bench.memory

theorem region (h : Like config ρ κ old heard s' s) : s'.region = s.region := by
  show s'.memory.region s'.transport.io.region = _
  rw [h.transport.io]
  exact h.memory.region _

theorem setMemory (h : Like config ρ κ old heard s' s) {m' m : Memory} (hm : Memory.Like config.buffers ρ heard m' m) :
    Like config ρ κ old heard (s'.setMemory m') (s.setMemory m) :=
  ⟨h.bench.withMemory hm, h.transport, h.device', h.device, h.number', h.number⟩

theorem withTransport (h : Like config ρ κ old heard s' s) {t' t : Transport} (ht : Transport.Like ρ κ t' t) :
    Like config ρ κ old heard { s' with transport := t' } { s with transport := t } :=
  ⟨h.bench, ht, h.device', h.device, h.number', h.number⟩

/-- Two sessions go on with links whose workers are alike. -/
theorem withLink {heard₂ : Bool} {l' l : Link Unit Sine} (h : Like config ρ κ old heard s' s)
    (hb : Bench.Like config ρ old heard₂ l'.bench l.bench) :
    Like config ρ κ old heard₂ { s' with link := l' } { s with link := l } :=
  ⟨hb, h.transport, h.device', h.device, h.number', h.number⟩

theorem onRegion (h : Like config ρ κ old heard s' s) (f : Region → Region) :
    Like config ρ κ old heard (s'.onRegion f) (s.onRegion f) := by
  rw [Session.onRegion, Session.onRegion, h.transport.io]
  exact h.setMemory (h.memory.modifyRegion _ f)

/-- What is done with the region and the rings of both is done alike. -/
theorem onIo {α : Type} (h : Like config ρ κ old heard s' s) {f : Io → α × Io}
    (hf : ∀ {io' io : Io}, io'.Like config.buffers heard io → (f io').2.Like config.buffers heard (f io).2) :
    Like config ρ κ old heard (s'.onIo f).2 (s.onIo f).2 := by
  rw [Session.onIo, Session.onIo, Memory.onIo_eq, Memory.onIo_eq, h.transport.io]
  exact h.setMemory (h.memory.setIo h.transport.bank (hf (h.memory.io h.transport.bank)))

theorem onIo_fst {α : Type} (h : Like config ρ κ old heard s' s) {f : Io → α × Io}
    (hf : ∀ {io' io : Io}, io'.Like config.buffers heard io → (f io').1 = (f io).1) : (s'.onIo f).1 = (s.onIo f).1 := by
  rw [Session.onIo, Session.onIo, Memory.onIo_eq, Memory.onIo_eq, h.transport.io]
  exact hf (h.memory.io h.transport.bank)

end Session.Like

/-- The dispatcher has nothing to do with the exchange and the engine. -/
theorem Session.dispatch_frame {φ σ ω : Type} (s : Session φ σ ω) :
    s.dispatch.link.exchange = s.link.exchange ∧ s.dispatch.link.bench.hosted = s.link.bench.hosted := by
  rw [dispatch]
  split
  · exact ⟨rfl, rfl⟩
  · exact ⟨rfl, rfl⟩
  · split <;> exact ⟨rfl, rfl⟩

/-- Without a device, a phase reaches the listeners, the transport, and at an end the region. -/
theorem Session.change_eq {φ σ ω : Type} {s : Session φ σ ω} (h : s.outlets.device = none) (p : PlayState) :
    ∃ o : Outlets ω, o.device = none ∧
      s.change p = { (if p.isEnded then (s.onRegion Region.reset).onRegion Region.reset else s) with
        transport := s.transport.enter p, outlets := o } := by
  obtain ⟨link, transport, ⟨bus, device⟩, number, callWait⟩ := s
  obtain rfl : device = none := h
  cases p <;> exact ⟨⟨_, none⟩, rfl, rfl⟩

namespace Session.Like

variable {ω : Type} {config : Config} {ρ κ : Nat} {old : List String} {heard : Bool} {s' s : Session Unit Sine ω}

/-- Two sessions go on with whatever listeners they have. -/
theorem withOutlets (h : Like config ρ κ old heard s' s) (o' o : Outlets ω) (ho' : o'.device = none)
    (ho : o.device = none) : Like config ρ κ old heard { s' with outlets := o' } { s with outlets := o } :=
  ⟨h.bench, h.transport, ho', ho, h.number', h.number⟩

theorem change (h : Like config ρ κ old heard s' s) (q : PlayState) :
    Like config ρ κ old heard (s'.change q) (s.change q) := by
  obtain ⟨o', ho', hchange'⟩ := Session.change_eq h.device' q
  obtain ⟨o, ho, hchange⟩ := Session.change_eq h.device q
  rw [hchange', hchange]
  split
  · exact (((h.onRegion _).onRegion _).withTransport (h.transport.enter q)).withOutlets o' o ho' ho
  · exact (h.withTransport (h.transport.enter q)).withOutlets o' o ho' ho

theorem pause (h : Like config ρ κ old heard s' s) :
    (s'.stage.pause Outlets.surroundings).1 = (s.stage.pause Outlets.surroundings).1 ∧
      Like config ρ κ old heard (s'.setStage (s'.stage.pause Outlets.surroundings).2)
        (s.setStage (s.stage.pause Outlets.surroundings).2) := by
  have hregion : s'.stage.region = s.stage.region := h.region
  rw [Stage.pause, Stage.pause, hregion]
  split
  · exact ⟨rfl, (h.onRegion fun r => r.set .paused 1).change .realtimePaused⟩
  · exact ⟨rfl, h⟩

theorem resume (h : Like config ρ κ old heard s' s) :
    (s'.stage.resume Outlets.surroundings).1 = (s.stage.resume Outlets.surroundings).1 ∧
      Like config ρ κ old heard (s'.setStage (s'.stage.resume Outlets.surroundings).2)
        (s.setStage (s.stage.resume Outlets.surroundings).2) := by
  have hregion : s'.stage.region = s.stage.region := h.region
  rw [Stage.resume, Stage.resume, hregion]
  split
  · exact ⟨rfl, (h.onRegion fun r => r.lower .paused).change .realtimeResumed⟩
  · exact ⟨rfl, h⟩

/-- A stop is refused by both, or both hand out a completion and write the same into the region. -/
theorem requestStop (h : Like config ρ κ old heard s' s) :
    (s'.stage.requestStop = (.ok none, s'.stage) ∧ s.stage.requestStop = (.ok none, s.stage)) ∨
      ∃ c t' t, s'.stage.requestStop = (.ok (some (κ + c)), t') ∧ s.stage.requestStop = (.ok (some c), t) ∧
        Like config ρ κ old heard (s'.setStage t') (s.setStage t) := by
  have hcurrent : s'.stage.transport.current = s.stage.transport.current := h.transport.current
  have hopen' : s'.stage.transport.disconnected = false := h.transport.connected'
  have hopen : s.stage.transport.disconnected = false := h.transport.connected
  rw [Stage.requestStop, Stage.requestStop, hcurrent, hopen', hopen]
  split
  · exact .inl ⟨rfl, rfl⟩
  · obtain ⟨hc, hlike⟩ := h.transport.armStop
    refine .inr ⟨s.transport.armStop.1,
      .onRegion { s'.stage with transport := s'.transport.armStop.2 } (Stage.signalStop s'.transport.armStop.2.current),
      .onRegion { s.stage with transport := s.transport.armStop.2 } (Stage.signalStop s.transport.armStop.2.current),
      ?_, rfl, ?_⟩
    · show (Except.ok (some s'.transport.armStop.1), _) = _
      rw [hc]
      rfl
    · rw [hlike.current]
      exact (h.withTransport hlike).onRegion _

/-- Both go on to a fresh region. -/
theorem renew (h : Like config ρ κ old heard s' s) :
    Like config ρ κ old heard ((s'.setStage s'.stage.replaceRegion).change .stopped)
      ((s.setStage s.stage.replaceRegion).change .stopped) := by
  obtain ⟨hi, hm⟩ := h.memory.allocRegion
  have ht := h.transport
  have hio : s'.stage.replaceRegion.transport.io = s.stage.replaceRegion.transport.io.shift ρ := by
    show Handle.mk s'.memory.allocRegion.1 s'.transport.io.bank = _
    rw [hi, ht.io]
    rfl
  have hnext : Transport.Like ρ κ s'.stage.replaceRegion.transport s.stage.replaceRegion.transport :=
    ⟨ht.current, hio, ht.bank, ht.size, ht.look, ht.start, ht.stop, ht.issued, ht.connected', ht.connected⟩
  exact ((h.setMemory hm).withTransport hnext).change .stopped

/-- The dispatcher hands on an old line of the first, which is none of the second. -/
theorem dispatch_old {line : String} (h : Like config ρ κ (line :: old) heard s' s) :
    Like config ρ κ old heard s'.dispatch s := by
  have hreports : s'.link.bench.reports = .message line :: (old.map .message ++ s.link.bench.reports) :=
    h.bench.reports
  rw [Session.dispatch, hreports]
  refine ⟨⟨h.bench.hosted, h.bench.number', h.bench.number, h.bench.memory, ?_, h.bench.life', h.bench.life⟩,
    h.transport, h.device', h.device, h.number', h.number⟩
  show s'.link.bench.reports.tail = _
  rw [hreports]
  rfl

theorem dispatch (h : Like config ρ κ [] heard s' s) : Like config ρ κ [] heard s'.dispatch s.dispatch := by
  have hreports : s'.link.bench.reports = s.link.bench.reports := h.bench.reports
  have hpop : Like config ρ κ [] heard s'.popReport s.popReport := by
    refine ⟨⟨h.bench.hosted, h.bench.number', h.bench.number, h.bench.memory, ?_, h.bench.life', h.bench.life⟩,
      h.transport, h.device', h.device, h.number', h.number⟩
    exact congrArg List.tail hreports
  rw [Session.dispatch, Session.dispatch, hreports]
  cases s.link.bench.reports with
  | nil =>
    have hgone' : s'.workerGone = false := by rw [workerGone, h.bench.life']; rfl
    have hgone : s.workerGone = false := by rw [workerGone, h.bench.life]; rfl
    dsimp only
    rw [hgone', hgone]
    exact h
  | cons e es =>
    cases e with
    | state q => exact hpop.change q
    | message line => exact hpop.withOutlets _ _ h.device' h.device

/-- A message is queued by both or by neither. -/
theorem sendMidi (h : Like config ρ κ old heard s' s) (m : Midi.Message) :
    (s'.sendMidi m).1 = (s.sendMidi m).1 ∧ Like config ρ κ old heard (s'.sendMidi m).2 (s.sendMidi m).2 := by
  have henqueue : ∀ {io' io : Io}, io'.Like config.buffers heard io →
      (io'.bank.midi.enqueue io'.region m).1 = (io.bank.midi.enqueue io.region m).1 ∧
      (io'.bank.midi.enqueue io'.region m).2.2 = (io.bank.midi.enqueue io.region m).2.2 ∧
      (io'.bank.midi.enqueue io'.region m).2.1.capacity = io'.bank.midi.capacity ∧
      (io.bank.midi.enqueue io.region m).2.1.capacity = io.bank.midi.capacity := by
    intro io' io hio
    rw [Midi.Ring.enqueue, Midi.Ring.enqueue]
    dsimp only
    rw [hio.region, hio.bank.midi', hio.bank.midi]
    split <;> exact ⟨rfl, rfl, rfl, rfl⟩
  refine ⟨h.onIo_fst fun hio => (henqueue hio).1, h.onIo fun hio => ?_⟩
  obtain ⟨-, hregion, hcapacity', hcapacity⟩ := henqueue hio
  exact ⟨hregion, hio.bank.input, hio.bank.output, hcapacity'.trans hio.bank.midi', hcapacity.trans hio.bank.midi⟩

end Session.Like

/-! ### The one request of a client -/

/-- Where the one request is that a client may have made: nowhere, on its way to the worker, answered and on its way
back, or handed to the client. -/
inductive Post where
  | empty
  | asked (uid : Nat) (r : Request)
  | answered (uid : Nat) (a : Reply)
  | told (uid : Nat) (a : Reply)

/-- The queues of an exchange hold this one request and nothing else, and the exchange is open. -/
structure Exchange.Bears (x : Exchange Request Reply) (p : Post) : Prop where
  calls : x.calls = match p with
    | .asked uid r => [(uid, r)]
    | _ => []
  replies : x.replies = match p with
    | .answered uid a => [(uid, a)]
    | _ => []
  waiting : match p with
    | .asked uid _ | .answered uid _ => uid ∈ x.pending ∧ x.delivered.lookup uid = none ∧ uid < x.nextUid
    | .told uid a => x.delivered.lookup uid = some a
    | .empty => True
  issued : ∀ q ∈ x.delivered, q.1 < x.nextUid
  takesCalls : x.takesCalls = true
  takesReplies : x.takesReplies = true

namespace Exchange.Bears

variable {x : Exchange Request Reply} {p : Post} {uid : Nat} {a : Reply} {r : Request}

/-- Once the client was told, nothing is left of its request. -/
theorem collected (h : x.Bears (.told uid a)) : x.Bears .empty :=
  ⟨h.calls, h.replies, trivial, h.issued, h.takesCalls, h.takesReplies⟩

/-- The router hands on what was answered, and has nothing else to do. -/
theorem route_answered (h : x.Bears (.answered uid a)) :
    x.route.Bears (.told uid a) ∧ x.route.nextUid = x.nextUid := by
  obtain ⟨hpending, hnew, hlt⟩ := h.waiting
  have hreplies : x.replies = [(uid, a)] := h.replies
  rw [route, hreplies]
  dsimp only
  rw [if_pos hpending]
  refine ⟨⟨h.calls, rfl, ?_, ?_, h.takesCalls, h.takesReplies⟩, rfl⟩
  · show List.lookup uid ((uid, a) :: x.delivered) = some a
    simp
  · intro q hq
    rcases List.mem_cons.1 hq with rfl | hq
    · exact hlt
    · exact h.issued q hq

theorem route_idle (h : x.Bears p) (hp : ∀ uid a, p ≠ .answered uid a) : x.route = x := by
  have hreplies : x.replies = [] := by
    rw [h.replies]
    cases p with
    | answered uid a => exact absurd rfl (hp uid a)
    | _ => rfl
  rw [route, hreplies]
  dsimp only
  rw [if_pos h.takesReplies]

end Exchange.Bears

namespace Link

variable {σ φ : Type} {l : Link φ σ} {p : Post} {uid : Nat} {a : Reply} {r : Request}

/-- A client that has no request makes one, under a new number. -/
theorem submit_bears (h : l.exchange.Bears .empty) (r : Request) :
    ∃ x : Exchange Request Reply, l.submit r = (.ok l.exchange.nextUid, { l with exchange := x }) ∧
      x.Bears (.asked l.exchange.nextUid r) ∧ x.nextUid = l.exchange.nextUid + 1 := by
  have hcalls : l.exchange.calls = [] := h.calls
  unfold submit Exchange.issue Exchange.register Exchange.send
  dsimp only
  rw [if_pos h.takesCalls]
  refine ⟨_, rfl, ⟨?_, h.replies, ⟨List.mem_cons_self, ?_, Nat.lt_succ_self _⟩, ?_, h.takesCalls, h.takesReplies⟩, rfl⟩
  · show l.exchange.calls ++ _ = _
    rw [hcalls]
    rfl
  · refine List.lookup_eq_none_iff.2 fun q hq => ?_
    have := h.issued q hq
    rw [bne_iff_ne]
    omega
  · intro q hq
    exact Nat.lt_succ_of_lt (h.issued q hq)

/-- The worker serves the request, or goes on if there is none. -/
theorem turn_asked {E : Engine φ σ} (notified : Bool) (h : l.exchange.Bears (.asked uid r))
    (hl : l.bench.life = .serving) {b : Bench φ σ} (hr : l.bench.handle E r = (some a, b)) (hb : b.life = .serving) :
    ∃ x : Exchange Request Reply, l.turn E notified = { l with bench := b, exchange := x } ∧
      x.Bears (.answered uid a) ∧ x.nextUid = l.exchange.nextUid := by
  have hcalls : l.exchange.calls = [(uid, r)] := h.calls
  have hreplies : l.exchange.replies = [] := h.replies
  have hattend : l.attend E notified =
      { l with bench := b, exchange := { l.exchange with calls := [], replies := [(uid, a)] } } := by
    rw [attend, if_neg (not_not_intro hl), Exchange.take?, hcalls]
    dsimp only
    rw [hr]
    dsimp only [Exchange.post]
    rw [hreplies]
    rfl
  refine ⟨{ l.exchange with calls := [], replies := [(uid, a)] }, ?_, ?_, rfl⟩
  · rw [turn, hattend, hangUpIfGone, if_pos hb]
  · exact ⟨rfl, rfl, h.waiting, h.issued, h.takesCalls, h.takesReplies⟩

theorem turn_idle {E : Engine φ σ} {notified : Bool} (h : l.exchange.Bears p) (hp : ∀ uid r, p ≠ .asked uid r)
    (hl : l.bench.life = .serving) (hb : (l.bench.step E notified).life = .serving) :
    l.turn E notified = { l with bench := l.bench.step E notified } := by
  have hcalls : l.exchange.calls = [] := by
    rw [h.calls]
    cases p with
    | asked uid r => exact absurd rfl (hp uid r)
    | _ => rfl
  rw [turn, attend, if_neg (not_not_intro hl), Exchange.take?, hcalls]
  dsimp only
  rw [hangUpIfGone, if_pos hb]

/-- The client waits until it is told. -/
theorem collect_waiting {label : String} (h : l.exchange.Bears p)
    (hp : (∃ r, p = .asked uid r) ∨ ∃ a, p = .answered uid a) : l.collect label uid = none := by
  rw [collect_eq_none_iff]
  rcases hp with ⟨r, rfl⟩ | ⟨a, rfl⟩
  · exact Exchange.receive_of_pending h.waiting.1 h.waiting.2.1
  · exact Exchange.receive_of_pending h.waiting.1 h.waiting.2.1

theorem collect_told {label : String} (h : l.exchange.Bears (.told uid a)) :
    l.collect label uid = some (a.mapError fun e => .remote label e.message) := by
  have hlookup : l.exchange.delivered.lookup uid = some a := h.waiting
  rw [collect, Exchange.receive, hlookup]
  cases a <;> rfl

end Link

end SynthControl
