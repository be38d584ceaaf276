import SynthControl.Proofs.Orderly

/-!
# One performance after another

The end of a performance reaches the transport over the queue of reports, and the next start reaches the
worker past that queue.  So a start that begins before the end was handed on can overtake it: then the
region is reset under the new performance, and the end of the old one completes the new start.

* `Timely`, `timely_of_patient` — **if no start begins before all is settled, no end comes late**: none is
  behind a later phase, none is on its way while something is performed, none meets a start that is waited
  for;
* `Muddled`, `muddled_iff` — **a performance is mixed up with the one before it exactly if its start began
  before all was settled**;
* `succession` — both in one statement; `Engine.brief`, `succession_brief` — a run in which it happens.

What carries the proofs is that a start which the worker did not serve yet (`Ensemble.Pends`) keeps the
client from everything else (`pends_cases`).
-/

namespace SynthControl

variable {φ σ ω : Type}

/-! ### What a step changes -/

/-- Who touches the worker in a step: the worker itself, the dispatcher, or nobody; then the memory alone can
be another. -/
inductive Ensemble.Touched (E : Engine φ σ) (u v : Ensemble φ σ ω) : Prop where
  | worker (notified : Bool) (hk : v.client = u.client)
      (hv : v.session = { u.session with link := u.session.link.turn E notified })
  | dispatcher (hk : v.client = u.client) (hv : v.session = u.session.dispatch)
  | nobody (m : Memory) (hb : v.session.link.bench = { u.session.link.bench with memory := m })

theorem Conversed.bench_eq {s s' : Session φ σ ω} {task : Lifecycle} {k : Client}
    (h : Conversed s task k s') :
    ∃ m, s'.link.bench = { s.link.bench with memory := m } := by
  cases h with
  | asksStart _ | cannotAskStart _ | asksReset _ | cannotAskReset _ =>
    exact ⟨_, (s.link.submit_cases _).1⟩
  | _ => exact ⟨_, rfl⟩

theorem Invoked.bench_eq {s s' : Session φ σ ω} {task : Invocation} {k : Client}
    (h : Invoked s task k s') : s'.link.bench = s.link.bench := by
  cases h with
  | asks _ | cannotAsk _ => exact (s.link.submit_cases _).1
  | _ => rfl

theorem Ensemble.Step.touched {E : Engine φ σ} {u v : Ensemble φ σ ω} (h : Step E u v) :
    Touched E u v := by
  rcases h with h | h
  · cases h <;> exact .nobody _ rfl
  · cases h with
    | turn ht =>
      obtain ⟨m, hm⟩ := (Lifecycle.turn_cases ht).bench_eq
      exact .nobody m hm
    | ends ht =>
      obtain ⟨m, hm⟩ := (Lifecycle.ends_cases ht).bench_eq
      exact .nobody m hm
    | invoke expired ht => exact .nobody _ (Invocation.turn_cases ht).bench_eq
    | returns expired ht => exact .nobody _ (Invocation.ends_cases ht).bench_eq
    | worker notified => exact .worker notified rfl rfl
    | router => exact .nobody _ rfl
    | dispatcher => exact .dispatcher rfl rfl
    | device => exact .nobody _ rfl

theorem Stage.requestStop_startSignal {κ : Type} (s : Stage κ) :
    s.requestStop.2.transport.startSignal = s.transport.startSignal := by
  rw [requestStop]
  split
  · rfl
  · split
    · rfl
    · exact s.transport.dropStop_startSignal

/-- A start is waited for if it was before, or if the client has just begun one. -/
theorem Ensemble.Step.startSignal_cases {E : Engine φ σ} {u v : Ensemble φ σ ω} (h : Step E u v)
    (hs : v.session.transport.startSignal ≠ none) :
    u.session.transport.startSignal ≠ none ∨
      (u.client = .lifecycle .arm ∧ ∃ n c io, v.client = .lifecycle (.sendStart n c io)) := by
  have hentered : ∀ (p : PlayState) (t : Stage (Outlets ω)),
      (t.change Outlets.surroundings p).transport.startSignal = none := by
    intro p t
    rw [Stage.change_transport]
    exact Transport.enter_startSignal p _
  rcases h with h | h
  · cases h with
    | pause =>
      left
      rw [Stage.pause] at hs
      split at hs
      · exact absurd (hentered _ _) hs
      · exact hs
    | resume =>
      left
      rw [Stage.resume] at hs
      split at hs
      · exact absurd (hentered _ _) hs
      · exact hs
    | _ => exact .inl hs
  · cases h with
    | turn ht =>
      cases Lifecycle.turn_cases ht with
      | arms _ _ => exact .inr ⟨rfl, _, _, _, rfl⟩
      | asksStop _ => exact .inl fun hn => hs ((Stage.requestStop_startSignal _).trans hn)
      | _ => exact .inl hs
    | ends ht =>
      cases Lifecycle.ends_cases ht with
      | disarms => exact absurd (Transport.dropStart_startSignal _) hs
      | renews => exact absurd (hentered _ _) hs
      | _ => exact .inl hs
    | invoke expired ht => cases Invocation.turn_cases ht <;> exact .inl hs
    | returns expired ht => cases Invocation.ends_cases ht <;> exact .inl hs
    | @dispatcher s k =>
      left
      cases s.dispatch_cases.1 with
      | phase p _ ht => exact absurd ((congrArg _ ht).trans (Transport.enter_startSignal p _)) hs
      | line _ ht => exact fun hn => hs ((congrArg _ ht).trans hn)
      | hangsUp _ _ ht =>
        refine absurd ((congrArg _ ht).trans ?_) hs
        exact (Transport.dropStop_startSignal _).trans (Transport.dropStart_startSignal _)
    | _ => exact .inl hs

/-! ### A start that was not served yet -/

/-- The client asked for a start under a completion, and the worker did not serve it yet. -/
def Ensemble.Pends (u : Ensemble φ σ ω) (c : Nat) : Prop :=
  (∃ n io, u.client = .lifecycle (.sendStart n c io)) ∨
    ∃ uid, u.client = .lifecycle (.awaitStart c uid) ∧ u.session.link.exchange.calls ≠ []

/-- What can happen in a session while a start is not served. -/
inductive Meanwhile (E : Engine φ σ) (s s' : Session φ σ ω) : Prop where
  | rests (m : Memory) (hb : s'.link.bench = { s.link.bench with memory := m })
      (ht : s'.transport = s.transport)
  /-- The worker goes on with its performance. -/
  | performs (notified : Bool) (hb : s'.link.bench = s.link.bench.step E notified)
      (ht : s'.transport = s.transport)
  | dispatches (hd : s' = s.dispatch)

/-- While a start is not served, worker and dispatcher go on; and where none was under way before, the
client has just begun one. -/
theorem Ensemble.pends_cases {E : Engine φ σ} {u v : Ensemble φ σ ω} {c : Nat} (h : Step E u v)
    (ho : Orderly u.session.link u.client) (hp : v.Pends c) :
    (u.Pends c ∧ Meanwhile E u.session v.session) ∨
      (u.client = .lifecycle .arm ∧ (∃ n io, v.client = .lifecycle (.sendStart n c io)) ∧
        ∃ t, u.session.transport.armStart = (.ok c, t) ∧
          v.session = { u.session with transport := t }) := by
  rcases h with h | h
  · cases h <;> rcases hp with ⟨_, _, hk⟩ | ⟨_, hk, _⟩ <;> cases hk
  · cases h with
    | turn ht =>
      cases Lifecycle.turn_cases ht with
      | arms hn harm =>
        rcases hp with ⟨_, _, hk⟩ | ⟨_, hk, _⟩
        · cases hk
          exact .inr ⟨rfl, ⟨_, _, rfl⟩, _, harm, rfl⟩
        · cases hk
      | asksStart hs =>
        rcases hp with ⟨_, _, hk⟩ | ⟨_, hk, _⟩
        · cases hk
        · cases hk
          exact .inl ⟨.inl ⟨_, _, rfl⟩, .rests _ (Link.submit_cases _ _).1 rfl⟩
      | _ => rcases hp with ⟨_, _, hk⟩ | ⟨_, hk, _⟩ <;> cases hk
    | ends ht => rcases hp with ⟨_, _, hk⟩ | ⟨_, hk, _⟩ <;> cases hk
    | invoke expired ht => rcases hp with ⟨_, _, hk⟩ | ⟨_, hk, _⟩ <;> cases hk
    | returns expired ht => rcases hp with ⟨_, _, hk⟩ | ⟨_, hk, _⟩ <;> cases hk
    | @worker s k notified =>
      refine .inl ?_
      rcases hp with ⟨n, io, hk⟩ | ⟨uid, hk, hc'⟩
      · obtain rfl : k = .lifecycle (.sendStart n c io) := hk
        refine ⟨.inl ⟨_, _, rfl⟩, ?_⟩
        have hnil : s.link.exchange.calls = [] := ho.engaged.calls_of_isAtEase rfl
        cases s.link.turn_cases E notified with
        | rests _ hb _ => exact .rests _ hb rfl
        | serves q rest _ hq _ _ =>
          rw [hnil] at hq
          cases hq
        | steps _ _ hb _ => exact .performs notified hb rfl
      · obtain rfl : k = .lifecycle (.awaitStart c uid) := hk
        exfalso
        cases s.link.turn_cases E notified with
        | rests _ _ hc => exact hc' hc
        | serves q rest _ hq _ hc =>
          obtain ⟨-, rfl⟩ := (Engaged.awaitStart_iff.1 ho.engaged).asks_of_calls hq
          exact hc' (hc.elim id id)
        | steps _ _ _ hc => exact hc' hc
    | @router s k =>
      refine .inl ⟨hp.imp_right fun ⟨uid, hk, hc⟩ => ⟨uid, hk, fun hn => hc ?_⟩, .rests _ rfl rfl⟩
      exact s.link.exchange.calls_route.trans hn
    | @dispatcher s k =>
      refine .inl ⟨hp.imp_right fun ⟨uid, hk, hc⟩ => ⟨uid, hk, fun hn => hc ?_⟩, .dispatches rfl⟩
      exact (congrArg Exchange.calls s.dispatch_cases.2.1).trans hn
    | device => exact .inl ⟨hp, .rests _ rfl rfl⟩

/-- A request on its way is a start that was not served yet, or one that begins no performance. -/
theorem Orderly.request_cases {u : Ensemble φ σ ω} (ho : Orderly u.session.link u.client)
    {q : Nat × Request} {rest : List (Nat × Request)}
    (hq : u.session.link.exchange.calls = q :: rest) :
    (∃ c, u.Pends c) ∨ (∃ n, q.2 = .reset n) ∨ ∃ n op args, q.2 = .call n op args := by
  obtain ⟨⟨link, transport, outlets, number, wait⟩, k⟩ := u
  have hne : link.exchange.calls ≠ [] := by
    intro hn
    exact List.cons_ne_nil _ _ (hq.symm.trans hn)
  have he : Engaged link k := ho.engaged
  unfold Engaged at he
  split at he
  · exact .inl ⟨_, .inr ⟨_, rfl, hne⟩⟩
  · exact .inr (.inl (he.asks_of_calls hq).1)
  · exact absurd he.1 hne
  · exact .inr (.inr (he.asks_of_calls hq).1)
  · exact absurd he hne

/-- Only a start that was asked for begins a performance. -/
theorem Orderly.pends_of_begins {u : Ensemble φ σ ω} (ho : Orderly u.session.link u.client)
    (E : Engine φ σ) (notified : Bool) (hn : u.session.link.bench.active? = none)
    (ha : (u.session.link.turn E notified).bench.active? ≠ none) : ∃ c, u.Pends c := by
  cases u.session.link.turn_cases E notified with
  | rests _ hb _ =>
    rw [hb] at ha
    exact absurd hn ha
  | steps _ _ hb _ =>
    rw [hb, Bench.step_of_idle E notified hn] at ha
    exact absurd hn ha
  | serves q rest _ hq hb _ =>
    rw [hb] at ha
    rcases ho.request_cases hq with hp | ⟨n, hr⟩ | ⟨n, op, args, hr⟩
    · exact hp
    · rw [hr] at ha
      exact absurd (Bench.handle_reset_idle E _ n) ha
    · rw [hr, Bench.handle_call_active?] at ha
      exact absurd hn ha

theorem Meanwhile.settled {E : Engine φ σ} {s s' : Session φ σ ω} (h : Meanwhile E s s')
    (hs : s.link.bench.IsSettled) : s'.link.bench.IsSettled := by
  cases h with
  | rests m hb _ =>
    rw [hb]
    exact ⟨hs.silent, hs.idle⟩
  | performs notified hb _ =>
    rw [hb, Bench.step_of_idle E notified hs.idle]
    exact hs
  | dispatches hd =>
    subst hd
    obtain ⟨hc, -, ha, -⟩ := s.dispatch_cases
    refine ⟨?_, ha.trans hs.idle⟩
    cases hc with
    | phase p hp _ =>
      rw [hs.silent] at hp
      cases hp
    | line hp _ => exact hp.trans hs.silent
    | hangsUp _ hp _ => exact hp.trans hs.silent

/-! ### Starts that begin when all is settled -/

/-- No end comes late: none is behind a later phase, none is on its way while something is performed, and
none is the next to be handed on while a start is waited for. -/
structure Session.Timely (s : Session φ σ ω) : Prop where
  last : ∀ p ∈ (phases s.link.bench.reports).dropLast, p.isEnded = false
  playing : s.link.bench.active? ≠ none → ∀ p ∈ phases s.link.bench.reports, p.isEnded = false
  waiting : s.transport.startSignal ≠ none →
    ∀ p ∈ (phases s.link.bench.reports).head?, p.isEnded = false

/-- A step with which no start begins before all is settled. -/
def Ensemble.PatientStep (E : Engine φ σ) (u v : Ensemble φ σ ω) : Prop :=
  Step E u v ∧ ∀ n c io, u.client = .lifecycle .arm → v.client = .lifecycle (.sendStart n c io) →
    u.session.link.bench.IsSettled

/-- What can come of a session, and of its client, while no start begins before all is settled. -/
def Ensemble.PatientlyReachable (E : Engine φ σ) (device : Option (Render.Device ω))
    (u : Ensemble φ σ ω) : Prop :=
  ∃ (factory : φ) (config : Config) (log : Listener ω) (world : ω) (s : Session φ σ ω),
    Session.create E factory config device log world = .ok s ∧
      Relation.ReflTransGen (PatientStep E) ⟨s, .free⟩ u

/-- The invariant: no end comes late, what is waited for did not begin yet as long as it is not reported,
and a start that was not served finds all settled. -/
structure Ensemble.Unhurried (u : Ensemble φ σ ω) : Prop where
  timely : u.session.Timely
  waits : u.session.transport.startSignal ≠ none → phases u.session.link.bench.reports = [] →
    u.session.link.bench.active? = none
  settled : ∀ c, u.Pends c → u.session.link.bench.IsSettled

namespace Ensemble.Unhurried

variable {E : Engine φ σ} {u v : Ensemble φ σ ω}

theorem of_settled (h : u.session.link.bench.IsSettled) : u.Unhurried := by
  refine ⟨⟨?_, fun ha => absurd h.idle ha, ?_⟩, fun _ _ => h.idle, fun _ _ => h⟩
  · rw [h.silent]
    exact nofun
  · intro _
    rw [h.silent]
    exact nofun

/-- Where no phase is reported, no performance begun and no start asked for, it is kept. -/
theorem congr (h : u.Unhurried)
    (hp : phases v.session.link.bench.reports = phases u.session.link.bench.reports)
    (ha : v.session.link.bench.active? ≠ none → u.session.link.bench.active? ≠ none)
    (hs : v.session.transport.startSignal ≠ none → u.session.transport.startSignal ≠ none)
    (hsettled : ∀ c, v.Pends c → v.session.link.bench.IsSettled) : v.Unhurried := by
  obtain ⟨⟨hlast, hplaying, hwaiting⟩, hwaits, -⟩ := h
  rw [← hp] at hlast hplaying hwaiting hwaits
  exact ⟨⟨hlast, fun hx => hplaying (ha hx), fun hx => hwaiting (hs hx)⟩,
    fun hx hn => Classical.not_not.1 fun hx' => ha hx' (hwaits (hs hx) hn), hsettled⟩

/-- A turn of the worker keeps it: a performance begins only for a start that was asked for. -/
theorem worker (h : u.Unhurried) (ho : Orderly u.session.link u.client) (notified : Bool)
    (hv : v.session = { u.session with link := u.session.link.turn E notified })
    (hsettled : ∀ c, v.Pends c → v.session.link.bench.IsSettled) : v.Unhurried := by
  have hmove := u.session.link.turn_move E notified
  have hb : v.session.link.bench = (u.session.link.turn E notified).bench := by rw [hv]
  have ht : v.session.transport = u.session.transport := by rw [hv]
  rw [← hb] at hmove
  cases hmove with
  | keeps ha hp => exact h.congr hp (ha ▸ id) (ht ▸ id) hsettled
  | begins a hn ha hp =>
    obtain ⟨c, hc⟩ := ho.pends_of_begins E notified hn (by rw [← hb, ha]; simp)
    rw [(h.settled c hc).silent, List.nil_append] at hp
    have hstarted : ∀ p ∈ [a.mode.started], p.isEnded = false := by
      intro p hm
      rw [List.mem_singleton.1 hm]
      exact Mode.isEnded_started a.mode
    refine ⟨⟨?_, ?_, ?_⟩, ?_, hsettled⟩
    · rw [hp]
      exact nofun
    · intro _
      rw [hp]
      exact hstarted
    · intro _
      rw [hp]
      exact fun p hm => hstarted p (List.mem_of_mem_head? hm)
    · intro _ hn
      rw [hp] at hn
      cases hn
  | ends a ha hn hp =>
    -- what was performed had been reported to begin, so the end is behind that or nobody waits for it
    have hall := h.timely.playing (by rw [ha]; simp)
    refine ⟨⟨?_, fun hx => absurd hn hx, ?_⟩, fun _ _ => hn, hsettled⟩
    · rw [hp, List.dropLast_concat]
      exact hall
    · intro hs p hm
      rw [ht] at hs
      rw [hp] at hm
      cases hq : phases u.session.link.bench.reports with
      | nil =>
        rw [h.waits hs hq] at ha
        cases ha
      | cons q qs =>
        rw [hq] at hm hall
        obtain rfl : q = p := by simpa using hm
        exact hall q List.mem_cons_self
  | loses _ hn hp => exact h.congr hp (fun hx => absurd hn hx) (ht ▸ id) hsettled

/-- So does the dispatcher: once a phase was entered no start is waited for. -/
theorem dispatcher (h : u.Unhurried) (hv : v.session = u.session.dispatch)
    (hsettled : ∀ c, v.Pends c → v.session.link.bench.IsSettled) : v.Unhurried := by
  obtain ⟨hc, -, ha, -⟩ := u.session.dispatch_cases
  rw [← hv] at hc ha
  cases hc with
  | phase p hp ht =>
    have hs : v.session.transport.startSignal = none := by
      rw [ht]
      exact Transport.enter_startSignal p _
    refine ⟨⟨fun q hq => h.timely.last q ?_, fun hx q hq => h.timely.playing (ha ▸ hx) q ?_,
      fun hx => absurd hs hx⟩, fun hx => absurd hs hx, hsettled⟩
    · rw [hp, List.dropLast_cons_of_ne_nil (List.ne_nil_of_mem (List.dropLast_subset _ hq))]
      exact List.mem_cons_of_mem p hq
    · rw [hp]
      exact List.mem_cons_of_mem p hq
  | line hp ht => exact h.congr hp (ha ▸ id) (ht ▸ id) hsettled
  | hangsUp _ hp ht =>
    have hs : v.session.transport.startSignal = none := by
      rw [ht]
      exact (Transport.dropStop_startSignal _).trans (Transport.dropStart_startSignal _)
    exact h.congr hp (ha ▸ id) (fun hx => absurd hs hx) hsettled

/-- **Every step with which no start begins before all is settled keeps it.** -/
theorem step (h : u.Unhurried) (ho : Orderly u.session.link u.client) (hs : PatientStep E u v) :
    v.Unhurried := by
  have hsettled : ∀ c, v.Pends c → v.session.link.bench.IsSettled := by
    intro c hc
    rcases pends_cases hs.1 ho hc with ⟨hp, hm⟩ | ⟨hk, ⟨n, io, hk'⟩, t, -, hv⟩
    · exact hm.settled (h.settled c hp)
    · rw [hv]
      exact hs.2 n c io hk hk'
  cases hs.1.touched with
  | worker notified hk hv => exact h.worker ho notified hv hsettled
  | dispatcher hk hv => exact h.dispatcher hv hsettled
  | nobody m hb =>
    by_cases harm : u.client = .lifecycle .arm ∧ ∃ n c io, v.client = .lifecycle (.sendStart n c io)
    · obtain ⟨hk, n, c, io, hk'⟩ := harm
      exact of_settled (hsettled c (.inl ⟨n, io, hk'⟩))
    · refine h.congr (by rw [hb]) (?_) (?_) hsettled
      · intro ha
        rwa [hb] at ha
      · intro hx
        exact (hs.1.startSignal_cases hx).resolve_right harm

end Ensemble.Unhurried

theorem Ensemble.PatientlyReachable.reachable {E : Engine φ σ} {device : Option (Render.Device ω)}
    {u : Ensemble φ σ ω} (h : PatientlyReachable E device u) : Reachable E device u := by
  obtain ⟨factory, config, log, world, s, hs, hrun⟩ := h
  exact ⟨factory, config, log, world, s, hs, Relation.ReflTransGen.mono (fun _ _ h => h.1) _ _ hrun⟩

/-- **If no start begins before all is settled, no end comes late.** -/
theorem timely_of_patient {E : Engine φ σ} {device : Option (Render.Device ω)} {u : Ensemble φ σ ω}
    (h : Ensemble.PatientlyReachable E device u) : u.session.Timely := by
  obtain ⟨factory, config, log, world, s, hs, hrun⟩ := h
  have hunhurried : u.Unhurried := by
    induction hrun with
    | refl => exact .of_settled (Session.create_settled hs)
    | tail hrun hstep ih =>
      have hreachable : Ensemble.Reachable E device _ :=
        Ensemble.PatientlyReachable.reachable ⟨factory, config, log, world, s, hs, hrun⟩
      exact ih.step (orderly_of_reachable hreachable) hstep
  exact hunhurried.timely

/-! ### Starts that begin earlier -/

/-- A performance that has just begun is mixed up with one before it: an end is on its way still, or a phase
has completed the start already. -/
def Session.Muddled (s : Session φ σ ω) (c : Nat) : Prop :=
  (∃ p ∈ phases s.link.bench.reports, p.isEnded = true) ∨
    ∃ p, s.transport.completions.look c = .resolved p

/-- While nothing is performed, the last phase on its way is an end. -/
def Bench.EndsLast (b : Bench φ σ) : Prop :=
  b.life ≠ .crashed → b.active? = none → ∀ p ∈ (phases b.reports).getLast?, p.isEnded = true

theorem Link.turn_endsLast (E : Engine φ σ) (notified : Bool) {l : Link φ σ}
    (h : l.bench.EndsLast) : (l.turn E notified).bench.EndsLast := by
  intro hl hn p hp
  cases l.turn_move E notified with
  | keeps ha hq => exact h (l.turn_life E notified hl) (ha ▸ hn) p (hq ▸ hp)
  | begins a _ ha _ =>
    rw [ha] at hn
    cases hn
  | ends a _ _ hq =>
    rw [hq, List.getLast?_concat] at hp
    cases hp
    exact Mode.isEnded_ended a.mode
  | loses hx _ _ => exact absurd hx hl

theorem endsLast_of_reachable {E : Engine φ σ} {device : Option (Render.Device ω)}
    {u : Ensemble φ σ ω} (h : Ensemble.Reachable E device u) : u.session.link.bench.EndsLast := by
  refine h.invariant (P := fun u => u.session.link.bench.EndsLast) ?_ ?_
  · intro factory config log world s hs _ _ p hp
    rw [(Session.create_settled hs).silent] at hp
    cases hp
  · intro u v _ ih hstep
    cases hstep.touched with
    | worker notified _ hv =>
      rw [hv]
      exact Link.turn_endsLast E notified ih
    | dispatcher _ hv =>
      obtain ⟨hc, -, ha, hl⟩ := u.session.dispatch_cases
      rw [hv]
      intro hl' hn p hp
      rw [hl] at hl'
      rw [ha] at hn
      refine ih hl' hn p ?_
      cases hc with
      | phase q hq _ =>
        have hlast : (phases u.session.dispatch.link.bench.reports).getLast? = some p := hp
        rw [hq, List.getLast?_cons, hlast]
        rfl
      | line hq _ => exact hq ▸ hp
      | hangsUp _ hq _ => exact hq ▸ hp
    | nobody m hb =>
      rw [hb]
      exact ih

/-- A start waits under a completion and nothing has completed it. -/
def Transport.Awaits (t : Transport) (c : Nat) : Prop :=
  t.startSignal = some c ∧ t.completions.look c = .opened

/-- A start that began when all was settled: all stays settled, and it waits. -/
def Session.Ready (c : Nat) (s : Session φ σ ω) : Prop :=
  s.link.bench.life = .serving → s.link.bench.IsSettled ∧ s.transport.Awaits c

/-- A start that began earlier: it waits while all is not settled yet, or was completed already. -/
def Session.Late (c : Nat) (s : Session φ σ ω) : Prop :=
  s.link.bench.life = .serving →
    (¬ s.link.bench.IsSettled ∧ s.transport.Awaits c) ∨
      ∃ p, s.transport.completions.look c = .resolved p

namespace Meanwhile

variable {E : Engine φ σ} {s s' : Session φ σ ω} {c : Nat}

theorem life (h : Meanwhile E s s') (hl : s'.link.bench.life = .serving) :
    s.link.bench.life = .serving := by
  cases h with
  | rests m hb _ => rwa [hb] at hl
  | performs notified hb _ =>
    rw [hb] at hl
    rcases Bench.step_life E notified s.link.bench with hs | hs
    · rwa [hs] at hl
    · rw [hs] at hl
      cases hl
  | dispatches hd =>
    rw [hd] at hl
    exact s.dispatch_cases.2.2.2.symm.trans hl

theorem ready (h : Meanwhile E s s') (hr : s.Ready c) : s'.Ready c := by
  intro hl
  obtain ⟨hs, ha⟩ := hr (h.life hl)
  refine ⟨h.settled hs, ?_⟩
  cases h with
  | rests m _ ht => rwa [ht]
  | performs notified _ ht => rwa [ht]
  | dispatches hd =>
    subst hd
    cases s.dispatch_cases.1 with
    | phase p hp _ =>
      rw [hs.silent] at hp
      cases hp
    | line _ ht => rwa [ht]
    | hangsUp hx _ _ => exact absurd (s.dispatch_cases.2.2.2.symm.trans hl) hx

/-- While a start that began early waits, the next phase that is handed on completes it. -/
theorem late (h : Meanwhile E s s') (hr : s.Late c) : s'.Late c := by
  intro hl
  have hor := hr (h.life hl)
  cases h with
  | rests m hb ht =>
    rw [hb, ht]
    exact hor.imp_left fun ⟨hs, ha⟩ => ⟨fun hs' => hs ⟨hs'.silent, hs'.idle⟩, ha⟩
  | performs notified hb ht =>
    rw [ht]
    refine hor.imp_left fun ⟨hs, ha⟩ => ⟨?_, ha⟩
    intro hs'
    -- a step that leaves all settled found it so
    have hm := Bench.step_move E notified s.link.bench
    rw [← hb] at hm
    cases hm with
    | keeps hx hp => exact hs ⟨hp.symm.trans hs'.silent, hx.symm.trans hs'.idle⟩
    | begins a _ _ hp => exact absurd (hp.symm.trans hs'.silent) (by simp)
    | ends a _ _ hp => exact absurd (hp.symm.trans hs'.silent) (by simp)
    | loses hx _ _ =>
      rw [hx] at hl
      cases hl
  | dispatches hd =>
    subst hd
    obtain ⟨hc, -, hx, hy⟩ := s.dispatch_cases
    cases hc with
    | phase p _ ht =>
      rw [ht]
      rcases hor with ⟨-, hsig, hopen⟩ | ⟨q, hq⟩
      · exact .inr ⟨p, Transport.look_enter_armed p hsig hopen⟩
      · exact .inr ⟨q, Transport.look_enter_resolved p hq⟩
    | line hp ht =>
      rw [ht]
      exact hor.imp_left fun ⟨hs, ha⟩ =>
        ⟨fun hs' => hs ⟨hp.symm.trans hs'.silent, hx.symm.trans hs'.idle⟩, ha⟩
    | hangsUp hg _ _ => exact absurd (hy.symm.trans hl) hg

end Meanwhile

/-- Whoever goes on with a start does not begin another. -/
theorem Ensemble.Proceeds.client_ne_arm {E : Engine φ σ} {u v : Ensemble φ σ ω}
    (h : Proceeds E u v) (hu : u.client ≠ .lifecycle .arm) : v.client ≠ .lifecycle .arm := by
  cases h with
  | turn ht => cases Lifecycle.turn_cases ht <;> exact nofun
  | ends _ => exact nofun
  | invoke _ _ => exact nofun
  | returns _ _ => exact nofun
  | _ => exact hu

/-- What holds when the worker is to be asked for a start, and is kept in the meantime, holds until the
start is served. -/
theorem Ensemble.pends_run {E : Engine φ σ} {device : Option (Render.Device ω)}
    {P : Session φ σ ω → Prop} (hP : ∀ s s', Meanwhile E s s' → P s → P s')
    {s₁ : Session φ σ ω} {n : Int} {c : Nat} {io : Handle} {u : Ensemble φ σ ω}
    (hs : Reachable E device ⟨s₁, .lifecycle (.sendStart n c io)⟩) (h₁ : P s₁)
    (hrun : Relation.ReflTransGen (Proceeds E) ⟨s₁, .lifecycle (.sendStart n c io)⟩ u) :
    Reachable E device u ∧ u.client ≠ .lifecycle .arm ∧ ∀ d, u.Pends d → d = c ∧ P u.session := by
  induction hrun with
  | refl =>
    refine ⟨hs, nofun, ?_⟩
    intro d hd
    rcases hd with ⟨_, _, hk⟩ | ⟨_, hk, _⟩
    · cases hk
      exact ⟨rfl, h₁⟩
    · cases hk
  | @tail u v _ hstep ih =>
    obtain ⟨hu, hk, hpends⟩ := ih
    refine ⟨hu.tail (.inr hstep), hstep.client_ne_arm hk, ?_⟩
    intro d hd
    rcases pends_cases (.inr hstep) (orderly_of_reachable hu) hd with ⟨hp, hm⟩ | ⟨harm, -⟩
    · exact ⟨(hpends d hp).1, hP _ _ hm (hpends d hp).2⟩
    · exact absurd harm hk

/-- **A performance is mixed up with one before it exactly if its start began before all was settled.** -/
theorem muddled_iff {E : Engine φ σ} {device : Option (Render.Device ω)} {s₀ s₁ : Session φ σ ω}
    {n : Int} {c : Nat} {io : Handle} {u : Ensemble φ σ ω} {notified : Bool}
    (hs : Ensemble.Reachable E device ⟨s₀, .lifecycle .arm⟩)
    (ht : Lifecycle.turn s₀ .arm = .goesOn (.sendStart n c io) s₁)
    (hrun : Relation.ReflTransGen (Ensemble.Proceeds E) ⟨s₁, .lifecycle (.sendStart n c io)⟩ u)
    (hn : u.session.link.bench.active? = none)
    (ha : (u.session.link.turn E notified).bench.active? ≠ none) :
    Session.Muddled { u.session with link := u.session.link.turn E notified } c ↔
      ¬ s₀.link.bench.IsSettled := by
  have hs₁ := hs.tail (.inr (.turn ht))
  have hawaits : s₁.link = s₀.link ∧ s₁.transport.Awaits c := by
    cases Lifecycle.turn_cases ht with
    | arms _ harm =>
      obtain ⟨-, hopen, hsig⟩ := Transport.armStart_ok harm
      exact ⟨rfl, hsig, hopen⟩
  have hl : u.session.link.bench.life = .serving := by
    cases u.session.link.turn_cases E notified with
    | rests _ hb _ =>
      rw [hb] at ha
      exact absurd hn ha
    | serves q rest hl _ _ _ => exact hl
    | steps hl _ _ _ => exact hl
  -- what the turn reports is the beginning, which is no end
  have hphases : (∃ p ∈ phases (u.session.link.turn E notified).bench.reports, p.isEnded = true) ↔
      ∃ p ∈ phases u.session.link.bench.reports, p.isEnded = true := by
    cases u.session.link.turn_move E notified with
    | keeps hx _ => exact absurd (hx.trans hn) ha
    | begins a _ _ hp => simp [hp, or_and_right, exists_or]
    | ends a _ hx _ => exact absurd hx ha
    | loses _ hx _ => exact absurd hx ha
  have hmuddled : Session.Muddled { u.session with link := u.session.link.turn E notified } c ↔
      u.session.Muddled c := or_congr_left hphases
  rw [hmuddled]
  by_cases hsettled : s₀.link.bench.IsSettled
  · have hready : s₁.Ready c := fun _ => ⟨hawaits.1 ▸ hsettled, hawaits.2⟩
    obtain ⟨hu, -, hP⟩ := Ensemble.pends_run (fun _ _ h => h.ready) hs₁ hready hrun
    obtain ⟨d, hd⟩ := (orderly_of_reachable hu).pends_of_begins E notified hn ha
    obtain ⟨hsil, -, hopen⟩ := (hP d hd).2 hl
    refine iff_of_false ?_ (not_not_intro hsettled)
    rintro (⟨p, hp, -⟩ | ⟨p, hp⟩)
    · rw [hsil.silent] at hp
      cases hp
    · rw [hopen] at hp
      cases hp
  · have hlate : s₁.Late c := fun _ => .inl ⟨hawaits.1 ▸ hsettled, hawaits.2⟩
    obtain ⟨hu, -, hP⟩ := Ensemble.pends_run (fun _ _ h => h.late) hs₁ hlate hrun
    obtain ⟨d, hd⟩ := (orderly_of_reachable hu).pends_of_begins E notified hn ha
    refine iff_of_true ?_ hsettled
    rcases (hP d hd).2 hl with ⟨hns, -⟩ | hres
    · -- nothing is performed, so it is an end that is on its way
      have hne : phases u.session.link.bench.reports ≠ [] := fun hnil => hns ⟨hnil, hn⟩
      have hlast := endsLast_of_reachable hu (by rw [hl]; exact nofun) hn
      exact .inl ⟨_, List.getLast_mem hne, hlast _ (List.getLast?_eq_some_getLast hne)⟩
    · exact .inr hres

/-- An end that is handed on resets the region, whatever is performed. -/
theorem Session.get_region_dispatch_of_end {s : Session φ σ ω} {p : PlayState} {es : List Event}
    (hr : s.link.bench.reports = .state p :: es) (hp : p.isEnded = true) (f : Field) :
    s.dispatch.region.get f = f.initial := by
  have hd : s.dispatch = s.popReport.change p := by
    rw [dispatch]
    rw [hr]
  rw [hd]
  exact Stage.get_region_change_of_isEnded _ hp s.popReport.stage f

/-- **One performance after another.**  If no start begins before all is settled, no end comes late.  A
performance is mixed up with one before it exactly if its start began earlier; and the end of the one before
it then resets the region under it. -/
theorem succession (E : Engine φ σ) (device : Option (Render.Device ω)) :
    (∀ u, Ensemble.PatientlyReachable E device u → u.session.Timely) ∧
    (∀ s₀ s₁ n c io u notified, Ensemble.Reachable E device ⟨s₀, .lifecycle .arm⟩ →
      Lifecycle.turn s₀ .arm = .goesOn (.sendStart n c io) s₁ →
      Relation.ReflTransGen (Ensemble.Proceeds E) ⟨s₁, .lifecycle (.sendStart n c io)⟩ u →
      u.session.link.bench.active? = none →
      (u.session.link.turn E notified).bench.active? ≠ none →
      (Session.Muddled { u.session with link := u.session.link.turn E notified } c ↔
        ¬ s₀.link.bench.IsSettled)) ∧
    ∀ (s : Session φ σ ω) p es f, s.link.bench.reports = .state p :: es → p.isEnded = true →
      s.dispatch.region.get f = f.initial :=
  ⟨fun _ => timely_of_patient, fun _ _ _ _ _ _ _ => muddled_iff,
    fun _ _ _ f hr hp => Session.get_region_dispatch_of_end hr hp f⟩

/-- An engine whose performances are over with their first block. -/
def Engine.brief : Engine Unit Unit where
  build _ factory := (.ok (), factory)
  start io e := (.ok 0, e, io)
  mode _ := .realtime
  perform io e := (.ok .finished, e, io)
  cleanup io e := (.ok (), e, io)
  reset e := (.ok 0, e)
  call _ _ e := (.ok .unit, e)
  drain e := ([], e)

/-- A start that is asked for before an end was handed on begins a performance, and that end completes the
start and tells everybody that nothing is performed. -/
theorem succession_brief : ∃ (s : Session Unit Unit Unit) (c : Nat), s.Muddled c ∧
    s.region.get .performing = 1 ∧ s.dispatch.region.get .performing = 0 ∧
    s.dispatch.link.bench.active?.isSome = true ∧
    s.dispatch.transport.completions.look c = .resolved .realtimeEnded := by
  have hrun : ∃ (s₀ s₁ : Session Unit Unit Unit) (n : Int) (io : Handle) (u : Ensemble Unit Unit Unit),
      Ensemble.Reachable Engine.brief none ⟨s₀, .lifecycle .arm⟩ ∧
      Lifecycle.turn s₀ .arm = .goesOn (.sendStart n 1 io) s₁ ∧
      Relation.ReflTransGen (Ensemble.Proceeds Engine.brief) ⟨s₁, .lifecycle (.sendStart n 1 io)⟩ u ∧
      phases s₀.link.bench.reports = [.realtimeEnded] ∧ u.session.link.bench.active? = none ∧
      ∃ s, { u.session with link := u.session.link.turn Engine.brief false } = s ∧
        s.link.bench.active?.isSome = true ∧ s.region.get .performing = 1 ∧
        s.dispatch.region.get .performing = 0 ∧ s.dispatch.link.bench.active?.isSome = true ∧
        s.dispatch.transport.completions.look 1 = .resolved .realtimeEnded :=
    -- the first performance begins, is over with its first block, and the next start is asked for
    ⟨_, _, _, _, _, ⟨(), .small, fun _ w => .done w, (), _, rfl,
      (((((((((Relation.ReflTransGen.refl.tail (.inl .start)).tail (.inr (.turn rfl))).tail
        (.inr (.turn rfl))).tail (.inr (.worker false))).tail (.inr .router)).tail
        (.inr (.turn rfl))).tail (.inr .dispatcher)).tail (.inr (.ends rfl))).tail
        (.inr (.worker false))).tail (.inl .start)⟩, rfl, .tail .refl (.turn rfl), rfl, rfl, _, rfl, rfl,
      rfl, rfl, rfl, rfl⟩
  obtain ⟨s₀, s₁, n, io, u, hs, ht, hu, hended, hn, s, rfl, ha, h₁, h₀, hactive, hlook⟩ := hrun
  have hne : (u.session.link.turn Engine.brief false).bench.active? ≠ none := by
    intro hnone
    rw [hnone] at ha
    cases ha
  have hmuddled := (succession Engine.brief none).2.1 s₀ s₁ n 1 io u false hs ht hu hn hne
  refine ⟨_, 1, hmuddled.2 ?_, h₁, h₀, hactive, hlook⟩
  intro hsettled
  exact absurd (hended.symm.trans hsettled.silent) (List.cons_ne_nil _ _)

end SynthControl
