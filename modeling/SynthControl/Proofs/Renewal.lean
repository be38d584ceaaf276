import SynthControl.Proofs.ObservedSession
import SynthControl.Proofs.Reports
import SynthControl.Proofs.WellFormed

/-!
# A reset begins anew

After a reset nothing is left of what was performed before, but the files of the engine, the samples in the rings,
and the lines that are still to be reported.

* `Session.IsNew`, `create_isNew` — what a session is made of that was just created;
* `Session.Like.anew` — **back at `stopped`, a session whose engine is as new is like a new one**;
* `ObservedSession.like_self` — every run keeps an observed session like itself; in particular an engine that was reset is as new
  until the client has its answer;
* `ObservedSession.reset_begins_anew` — **a performance that was reset behaves like a new one**.
-/

namespace SynthControl

/-! ### The beginning -/

/-- A session that was just created: a worker with a new engine, on fresh memory; nothing is on its way. -/
structure Session.IsNew {ω : Type} (config : Config) (s : Session Unit Sine ω) : Prop where
  renewed : s.link.bench.IsRenewed config.engine
  number : s.link.bench.number = 1
  memory : s.link.bench.memory = (Memory.allocIo {} config.buffers.ringSamples config.buffers.midiCapacity).2
  reports : s.link.bench.reports = []
  life : s.link.bench.life = .serving
  bears : s.link.exchange.Bears .empty
  nextUid : s.link.exchange.nextUid = 2
  transport : s.transport = { io := ⟨0, 0⟩ }
  device : s.outlets.device = none
  engine : s.number = some 1

theorem Session.create_isNew {ω : Type} {config : Config} {log : Listener ω} {world : ω} {s : Session Unit Sine ω}
    (h : Session.create Sine.engine () config none log world = .ok s) : s.IsNew config := by
  have hengine : (Sine.drain (Sine.fresh ⟨config.engine, []⟩)).2 =
      (Sine.fresh ⟨config.engine, []⟩).dressed config.engine .empty := by
    simp only [Sine.drain, Sine.dressed, Sine.fresh]
  have hbuild (m : Memory) : (({ bench := { factory := (), memory := m } } : Link Unit Sine).build Sine.engine
      ⟨config.engine, []⟩) =
        (.ok (some 1),
          { bench := { factory := (), hosted := some ⟨(Sine.drain (Sine.fresh ⟨config.engine, []⟩)).2, none⟩
                       number := 1, memory := m }
            exchange := { nextUid := 2, delivered := [(1, .ok (.int 1))] } }) := rfl
  rw [create] at h
  split at h
  · cases h
  · dsimp only at h
    rw [hbuild, hengine] at h
    cases h
    refine ⟨⟨.empty, rfl⟩, rfl, rfl, rfl, rfl, ⟨rfl, rfl, trivial, ?_, rfl, rfl⟩, rfl, rfl, rfl, rfl⟩
    intro q hq
    obtain rfl := List.mem_singleton.1 hq
    exact Nat.one_lt_two

/-! ### What a reset leaves -/

/-- Reports without a phase are lines. -/
theorem lines_of_phases_nil {es : List Event} (h : phases es = []) : ∃ old : List String, es = old.map .message := by
  induction es with
  | nil => exact ⟨[], rfl⟩
  | cons e es ih =>
    cases e with
    | state p => cases h
    | message line =>
      obtain ⟨old, rfl⟩ := ih h
      exact ⟨line :: old, rfl⟩

/-- A new ring holds nothing. -/
theorem Ring.holds_create {α : Type} (capacity : Nat) (x : α) : (create capacity x).Holds (max capacity 1) [] :=
  ⟨isSound_create capacity x, by simp [Ring.capacity, create], contents_create capacity x⟩

section

variable {ω : Type} {config : Config} {s s' : Session Unit Sine ω}

/-- Only a conversation about a reset that has come to its end answers zero. -/
theorem Lifecycle.ends_reset {task : Lifecycle} (hw : task.wish = .reset) (h : turn s task = .ends (.ok 0) s') :
    task = .returnToStopped 0 ∧ s' = (s.setStage s.stage.replaceRegion).change .stopped := by
  cases task with
  | arm | sendStart | awaitStart | disarm | awaitStarted => cases hw
  | checkReset =>
    simp only [turn] at h
    split at h <;> cases h
  | requestStop p =>
    cases p with
    | stop => cases hw
    | reset =>
      simp only [turn, afterStop] at h
      split at h <;> cases h
  | awaitStopped p c =>
    cases p with
    | stop => cases hw
    | reset =>
      simp only [turn, afterStop] at h
      split at h <;> cases h
  | sendReset =>
    simp only [turn] at h
    split at h
    · cases h
    · split at h <;> cases h
  | awaitReset uid =>
    simp only [turn] at h
    split at h <;> cases h
  | returnToStopped status =>
    cases h
    exact ⟨rfl, rfl⟩

end

/-! ### Memories and transports that begin anew -/

section

variable {size : Buffers}

theorem Bank.like_create (size : Buffers) :
    Bank.Like size false (.create size.ringSamples size.midiCapacity) (.create size.ringSamples size.midiCapacity) := by
  have hring := Ring.holds_create size.ringSamples (0 : Float)
  exact ⟨.unheard hring hring, .unheard hring hring, rfl, rfl⟩

/-- The memory of a new session is like itself. -/
theorem Memory.like_allocIo (size : Buffers) :
    Memory.Like size 0 false (allocIo {} size.ringSamples size.midiCapacity).2
      (allocIo {} size.ringSamples size.midiCapacity).2 :=
  ⟨rfl, fun i => by rw [Nat.zero_add], rfl, rfl, Bank.like_create size⟩

/-- From a region on that was just allocated, a memory is like the one of a new session, but for the audio. -/
theorem Memory.Like.anew {ρ : Nat} {heard : Bool} {m m₀ : Memory} (h : Memory.Like size ρ heard m m₀) :
    Memory.Like size m.regions.size false m.allocRegion.2 (allocIo {} size.ringSamples size.midiCapacity).2 := by
  have hnew := Bank.like_create size
  obtain ⟨q', -, hinput, -, -⟩ := h.bank.input
  obtain ⟨p', -, houtput, -, -⟩ := h.bank.output
  obtain ⟨-, q, -, hinput₁, -⟩ := hnew.input
  obtain ⟨-, p, -, houtput₁, -⟩ := hnew.output
  refine ⟨?_, fun i => ?_, h.banks', rfl,
    .unheard hinput hinput₁, .unheard houtput houtput₁, h.bank.midi', hnew.midi⟩
  · simp [Memory.allocRegion, Memory.allocIo, Memory.allocBank]
  · rw [region_allocIo]
    simp only [Memory.allocRegion, Memory.region, Array.getD_eq_getD_getElem?, Array.getElem?_push]
    cases i with
    | zero => simp
    | succ i => simp

end

/-- So is a transport that was given a region and entered `stopped` like the one of a new session: whatever waits
for a completion waits for an earlier one. -/
theorem Transport.Like.anew {ρ κ : Nat} {t : Transport} (h : Transport.Like ρ κ t t) (i : Nat) :
    Transport.Like i t.completions.size (Transport.enter .stopped { t with io := { t.io with region := i } })
      { io := ⟨0, 0⟩ } := by
  let t' : Transport := { t with io := { t.io with region := i } }
  obtain ⟨hstop, hopen, hsize⟩ := enter_frame t' .stopped
  have hstop : (t'.enter .stopped).stopSignal = t.stopSignal := hstop
  have hsize : (t'.enter .stopped).completions.size = t.completions.size := hsize
  have hio : t'.io = Handle.shift i ⟨0, 0⟩ := congrArg (Handle.mk i) h.bank
  refine ⟨enter_current _ _, (enter_io t' _).trans hio, rfl, hsize, fun c => ?_, fun c => ?_, fun c => ?_, by simp,
    hopen.trans h.connected, rfl⟩
  · show (t'.enter .stopped).completions.look _ = .closed
    by_contra hc
    have := Completions.lt_size_of_look _ hc
    omega
  · show (t'.enter .stopped).startSignal = _ ↔ none = some c
    rw [enter_startSignal]
    simp
  · show (t'.enter .stopped).stopSignal = _ ↔ none = some c
    rw [hstop]
    simp only [reduceCtorEq, iff_false]
    intro hc
    have := h.issued _ hc
    omega

/-- **Back at `stopped`, a session is like a new one**, if its engine is as new. -/
theorem Session.Like.anew {ω : Type} {config : Config} {κ ρ : Nat} {old₀ old : List String} {heard : Bool}
    {s s₁ : Session Unit Sine ω} (h : Session.Like config ρ κ old₀ heard s s)
    (hs : s.link.bench.IsRenewed config.engine) (h₁ : s₁.IsNew config)
    (hold : s.link.bench.reports = old.map .message) :
    Session.Like config s.memory.regions.size s.transport.completions.size old false
      ((s.setStage s.stage.replaceRegion).change .stopped) s₁ := by
  obtain ⟨f', hf'⟩ := hs
  obtain ⟨f, hf⟩ := h₁.renewed
  obtain ⟨o, ho, hchange⟩ := Session.change_eq (s := s.setStage s.stage.replaceRegion) h.device .stopped
  rw [hchange, if_neg (by decide)]
  have hmemory : Memory.Like config.buffers s.memory.regions.size false s.memory.allocRegion.2
      s₁.link.bench.memory := by
    rw [h₁.memory]
    exact h.memory.anew
  have hreports : s.link.bench.reports = old.map .message ++ s₁.link.bench.reports := by
    rw [h₁.reports, List.append_nil]
    exact hold
  refine ⟨⟨⟨_, _, hf', hf, .fresh ⟨config.engine, []⟩, f', f, none, rfl, rfl, by simp⟩, h.bench.number', h₁.number,
    hmemory, hreports, h.bench.life', h₁.life⟩, ?_, ho, h₁.device, h.number', h₁.engine⟩
  rw [h₁.transport]
  exact h.transport.anew _

/-- A session that was just created is like itself. -/
theorem Session.IsNew.like_self {ω : Type} {config : Config} {s : Session Unit Sine ω} (h : s.IsNew config) :
    Session.Like config 0 0 [] false s s := by
  obtain ⟨f, hf⟩ := h.renewed
  refine ⟨⟨⟨_, _, hf, hf, .fresh ⟨config.engine, []⟩, f, f, none, rfl, rfl, by simp⟩, h.number, h.number, ?_, rfl,
    h.life, h.life⟩, ?_, h.device, h.device, h.engine, h.engine⟩
  · rw [h.memory]
    exact Memory.like_allocIo config.buffers
  · rw [h.transport]
    refine ⟨rfl, rfl, rfl, rfl, fun c => ?_, fun c => ?_, fun c => ?_, by simp, rfl, rfl⟩
    · rw [Nat.zero_add]
    · simp
    · simp

namespace ObservedSession

variable {ω : Type} {config : Config} {log log' : Listener ω} {world world' : ω} {s₀ s₁ : Session Unit Sine ω}

/-- An observed session that has come to any point is like itself. -/
theorem like_self (h : s₀.IsNew config) (history : List (Move ω)) :
    let c := final act history (new s₀)
    Like config 0 0 0 [] c c := by
  refine final_invariant (P := fun c => Like config 0 0 0 [] c c) (fun m c hc => (hc.act m (.inl rfl)).2) ?_ history
  refine ⟨rfl, Ensemble.Like.quiet .free h.like_self ?_ h.bears h.bears rfl id⟩
  show s₀.link.exchange.Like 0 s₀.link.exchange
  rw [Exchange.Like, h.nextUid]
  exact ⟨rfl, Nat.one_lt_two⟩

/-- What is done at once answers no reset. -/
theorem atOnce_ne_status (f : Session Unit Sine ω → Bool × Session Unit Sine ω) (v : Ensemble Unit Sine ω)
    {wish : Wish} {answer : Except Error Int} : (v.atOnce f).1 ≠ some (.status wish answer) := by
  rw [Ensemble.atOnce]
  split <;> simp

/-- When a reset answers zero, the client was about to return to `stopped`, and has done so. -/
theorem act_of_reset {c : ObservedSession ω} {m : Move ω} (h : (act m c).1 = some (.status .reset (.ok 0))) :
    c.ensemble.client = .lifecycle (.returnToStopped 0) ∧ (act m c).2.ensemble =
      ⟨(c.ensemble.session.setStage c.ensemble.session.stage.replaceRegion).change .stopped, .free⟩ := by
  obtain ⟨⟨s, k⟩, heard⟩ := c
  cases m with
  | pause => exact absurd h (atOnce_ne_status _ _)
  | resume => exact absurd h (atOnce_ne_status _ _)
  | sendMidi m => exact absurd h (atOnce_ne_status _ _)
  | goOn expired =>
    cases k with
    | free => cases h
    | call task =>
      simp only [act, Ensemble.move, Ensemble.goOn] at h
      split at h <;> cases h
    | lifecycle task =>
      simp only [act, Ensemble.move, Ensemble.goOn] at h ⊢
      cases hturn : Lifecycle.turn s task with
      | blocked =>
        rw [hturn] at h
        cases h
      | goesOn task' s' =>
        rw [hturn] at h
        cases h
      | ends answer s' =>
        rw [hturn] at h
        simp only [Option.some.injEq, Sight.status.injEq] at h
        obtain ⟨hwish, rfl⟩ := h
        obtain ⟨rfl, rfl⟩ := Lifecycle.ends_reset hwish hturn
        exact ⟨rfl, rfl⟩
  | _ => cases h

/-- After a reset that answered zero an observed session is like a new one, when nothing but lines is still to be
reported. -/
theorem like_new (h₀ : s₀.IsNew config) (h₁ : s₁.IsNew config) {history : List (Move ω)} {m : Move ω}
    {c : ObservedSession ω} (hreset : act m (final act history (new s₀)) = (some (.status .reset (.ok 0)), c)) {old : List String}
    (hold : c.ensemble.session.link.bench.reports = old.map .message) :
    ∃ ρ κ u, Like config ρ κ u old c.hush (new s₁) := by
  obtain ⟨-, hlike⟩ := like_self h₀ history
  obtain ⟨hclient, hanew⟩ := act_of_reset (congrArg Prod.fst hreset)
  rw [hreset] at hanew
  generalize final act history (new s₀) = before at hlike hclient hanew
  obtain ⟨⟨s, k⟩, heard⟩ := before
  obtain ⟨v, heard'⟩ := c
  obtain rfl : v = _ := hanew
  obtain rfl : k = .lifecycle (.returnToStopped 0) := hclient
  obtain ⟨-, hbears⟩ := hlike.bears_empty fun _ => id
  obtain ⟨-, p, -, -, -, -, hrenews⟩ := hlike.post
  have hfirst : 1 < s.link.exchange.nextUid := hlike.exchange.2
  refine ⟨_, _, s.link.exchange.nextUid - 2, rfl,
    Ensemble.Like.quiet .free (hlike.session.anew (hrenews trivial).1 h₁ hold) ?_ hbears h₁.bears rfl id⟩
  show s.link.exchange.Like _ s₁.link.exchange
  rw [Exchange.Like, h₁.nextUid]
  omega

/-- **A performance that was reset behaves like a new one** of the same configuration.  Whatever was done with it
before the reset answered zero, and whatever is done with both afterwards, the same is seen of both, and in the end
(hence at any time) both show the same.  What is left are the lines that were still to be reported, and these the
dispatcher has to hand on in addition: `ms` is done with the first, and what is done with the second is `ms` without
that; or `ms` is done with the second, and that comes first with the first. -/
theorem reset_begins_anew (h₀ : Session.create Sine.engine () config none log world = .ok s₀)
    (h₁ : Session.create Sine.engine () config none log' world' = .ok s₁) (history : List (Move ω)) (m : Move ω)
    {c : ObservedSession ω} (hreset : act m (final act history (new s₀)) = (some (.status .reset (.ok 0)), c))
    (hquiet : phases c.ensemble.session.link.bench.reports = []) (ms : List (Move ω)) :
    let lines := c.ensemble.session.link.bench.reports.length
    (sights ms c.hush = sights (Move.skipDispatches lines ms) (new s₁) ∧
      (final act ms c.hush).view = (final act (Move.skipDispatches lines ms) (new s₁)).view) ∧
    sights (List.replicate lines .dispatcher ++ ms) c.hush = sights ms (new s₁) ∧
      (final act (List.replicate lines .dispatcher ++ ms) c.hush).view = (final act ms (new s₁)).view := by
  obtain ⟨old, hold⟩ := lines_of_phases_nil hquiet
  obtain ⟨ρ, κ, u, hlike⟩ := like_new (Session.create_isNew h₀) (Session.create_isNew h₁) hreset hold
  have hlater := hlike.run (List.replicate old.length .dispatcher ++ ms)
  rw [Move.skipDispatches_replicate] at hlater
  rw [hold, List.length_map]
  exact ⟨hlike.run ms, hlater⟩

/-- A performance is begun, heard and reset, and its session goes on as a new one. -/
theorem reset_begins_anew_heard :
    let history : List (Move Unit) :=
      [.start, .goOn false, .goOn false, .worker false, .router, .goOn false, .dispatcher, .dispatcher, .goOn false,
        .worker false, .hear 4, .reset, .goOn false, .goOn false, .worker false, .dispatcher, .dispatcher, .goOn false,
        .goOn false, .worker false, .router, .goOn false]
    ∃ (s : Session Unit Sine Unit) (c : ObservedSession Unit),
      Session.create Sine.engine () .small none (fun _ w => .done w) () = .ok s ∧
      act (.goOn false) (final act history (new s)) = (some (.status .reset (.ok 0)), c) ∧
      c.ensemble.session.link.bench.reports = [.message "engine reset"] ∧
      ∀ ms : List (Move Unit), sights ms c.hush = sights (Move.skipDispatches 1 ms) (new s) ∧
        (final act ms c.hush).view = (final act (Move.skipDispatches 1 ms) (new s)).view := by
  intro history
  have hrun : ∃ (s : Session Unit Sine Unit) (c : ObservedSession Unit),
      Session.create Sine.engine () .small none (fun _ w => .done w) () = .ok s ∧
      act (.goOn false) (final act history (new s)) = (some (.status .reset (.ok 0)), c) ∧
      c.ensemble.session.link.bench.reports = [.message "engine reset"] :=
    ⟨_, _, rfl, rfl, rfl⟩
  obtain ⟨s, c, hs, hreset, hreports⟩ := hrun
  have hquiet : phases c.ensemble.session.link.bench.reports = [] := by rw [hreports]; rfl
  refine ⟨s, c, hs, hreset, hreports, fun ms => ?_⟩
  have hanew := (reset_begins_anew hs hs history (.goOn false) hreset hquiet ms).1
  rw [hreports] at hanew
  exact hanew

end ObservedSession
end SynthControl
