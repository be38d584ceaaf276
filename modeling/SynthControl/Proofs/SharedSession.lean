import SynthControl.Proofs.Agreement
import SynthControl.Proofs.Coherence
import SynthControl.Proofs.Succession

/-!
# Any number of clients

A session may be used from several threads.  Every client makes the steps of its conversations and calls one at a
time, and between two of them the other clients, worker, router, dispatcher and device may make any of theirs.
A start may then meet the reset of another client, so that a performance goes on in a region that the session has
left.  As long as it runs in the region of the session, the phase still tells what it does.

* `SharedSession`, `SharedSession.Step`, `SharedSession.Reachable` — a session with its clients, a step of anybody,
  and what can come of it;
* `Region.SameCourse` — the words that tell of the course of a performance are as they were;
* `Engine.Discreet`, `Outlets.Keep Io.SameCourse` — engines and callbacks that leave these words to worker and
  transport;
* `Region.IsHeld` — a region that is paused, or was told to stop;
* `Mode.Admits` — the phases that a running performance of a mode can be in;
* `Tracks` — the invariant of the session: the last phase on its way is one that the performance of its region can
  be in, and the paused phase is that of a region that is held;
* `Tracks.worker`, `Tracks.enter`, `Tracks.conversed`, … — **every step keeps it**;
* `SharedSession.tracked_of_reachable` — **it holds whatever the clients do**.
-/

namespace SynthControl

open Memory Render

variable {φ σ ω ι : Type}

/-! ### The course of a performance -/

/-- The words that tell whether a performance runs, whether it is paused and whether it is to stop. -/
def Field.courseWords : List Field := [.performing, .rendering, .paused, .stop]

/-- The words that tell of the course of a performance are as they were. -/
def Region.SameCourse (r r' : Region) : Prop := ∀ f ∈ Field.courseWords, r'.get f = r.get f

/-- The same of the region of some rings. -/
def Io.SameCourse (io io' : Io) : Prop := io.region.SameCourse io'.region

/-- The region is paused, or was told to stop. -/
def Region.IsHeld (r : Region) : Prop := r.get .paused = 1 ∨ r.get .stop = 1

namespace Region

variable {r r' r'' : Region}

theorem SameCourse.refl (r : Region) : SameCourse r r := fun _ _ => rfl

theorem SameCourse.trans (h : SameCourse r r') (h' : SameCourse r' r'') : SameCourse r r'' :=
  fun f hf => (h' f hf).trans (h f hf)

/-- Another word is written. -/
theorem sameCourse_set (r : Region) {f : Field} (v : Int) (hf : f ∉ Field.courseWords) :
    SameCourse r (r.set f v) := by
  intro g hg
  refine r.get_set_other v ?_
  rintro rfl
  exact hf hg

theorem SameCourse.busy (h : SameCourse r r') (mode : Mode) : r'.get mode.busy = r.get mode.busy :=
  h _ (by cases mode <;> decide)

theorem SameCourse.isHeld (h : SameCourse r r') (hr : r.IsHeld) : r'.IsHeld := by
  rw [IsHeld, h .paused (by decide), h .stop (by decide)]
  exact hr

end Region

/-- An engine that leaves the words that tell of the course of a performance to worker and transport. -/
structure Engine.Discreet (E : Engine φ σ) : Prop where
  start {io left : Io} {e e' : σ} {r : Attempt Int} : E.start io e = (r, e', left) → io.SameCourse left
  perform {io left : Io} {e e' : σ} {r : Attempt BlockEnd} : E.perform io e = (r, e', left) → io.SameCourse left
  cleanup {io left : Io} {e e' : σ} {r : Attempt Unit} : E.cleanup io e = (r, e', left) → io.SameCourse left

/-- The sine engine is discreet. -/
theorem Sine.engine_discreet : Sine.engine.Discreet where
  start {io left e e' r} hs := by
    have hleft : left.region = e.publish io.region := congrArg Io.region (Sine.start_left hs).1
    rw [Io.SameCourse, hleft, Sine.publish]
    have hset : ∀ {r r' : Region} (f : Field) (v : Int), f ∉ Field.courseWords → r.SameCourse r' →
        r.SameCourse (r'.set f v) := fun f v hf h => h.trans (Region.sameCourse_set _ v hf)
    exact hset _ _ (by decide) <| hset _ _ (by decide) <| hset _ _ (by decide) <| hset _ _ (by decide) <|
      hset _ _ (by decide) <| hset _ _ (by decide) <| hset _ _ (by decide) <| hset _ _ (by decide) <| .refl _
  perform {io left e e' r} hp := by
    have ha := (Sine.perform_aside hp).1.1
    rw [Io.SameCourse, ha]
    exact .refl _
  cleanup {io left e e' r} hc := by
    obtain ⟨r', e₁, heq, -⟩ := Sine.cleanup_keeps io e
    obtain rfl : io = left := congrArg (·.2.2) (heq.symm.trans hc)
    exact .refl _

/-! ### Changes of the memory -/

/-- After a change there are as many regions, none tells of a performance that it did not tell of before, and those
that were held still are. -/
structure Memory.Mild (m m' : Memory) : Prop where
  size_eq : m'.regions.size = m.regions.size
  calms : ∀ mode, Calms mode m m'
  held : ∀ i, i < m.regions.size → (m.region i).IsHeld → (m'.region i).IsHeld

namespace Memory

variable {m m' : Memory}

theorem Mild.refl (m : Memory) : Mild m m := ⟨rfl, fun _ _ => id, fun _ _ => id⟩

/-- A region is changed in such a way. -/
theorem mild_modifyRegion (m : Memory) (i : Nat) {f : Region → Region}
    (hb : ∀ mode : Mode, (f (m.region i)).get mode.busy = 1 → (m.region i).get mode.busy = 1)
    (hh : (m.region i).IsHeld → (f (m.region i)).IsHeld) : Mild m (m.modifyRegion i f) := by
  refine ⟨Array.size_modify, fun mode => calms_modifyRegion mode m i f (hb mode), fun j hj hr => ?_⟩
  by_cases hij : i = j
  · subst hij
    rw [region_modifyRegion_same m f hj]
    exact hh hr
  · rwa [region_modifyRegion_other m f hij]

/-- A region is changed, but not the words of its course. -/
theorem mild_course (m : Memory) (i : Nat) {f : Region → Region} (hf : (m.region i).SameCourse (f (m.region i))) :
    Mild m (m.modifyRegion i f) :=
  mild_modifyRegion m i (fun mode hx => (hf.busy mode).symm.trans hx) hf.isHeld

theorem mild_setIo (m : Memory) (h : Handle) {io : Io} (hio : (m.io h).SameCourse io) : Mild m (m.setIo h io) := by
  have hm := mild_course m h.region (f := fun _ => io.region) hio
  exact ⟨hm.size_eq, hm.calms, hm.held⟩

theorem Attuned.mild {o : Option Active} (h : m.Attuned o) (hm : Mild m m') : m'.Attuned o :=
  fun mode i hi => h mode i (hm.calms mode i hi)

end Memory

/-! ### The worker -/

/-- What the worker upholds: the regions tell of no performance but the one that runs, there are as many as there
were, and one of them is held, if it was. -/
structure Memory.Upheld (n i : Nat) (p : Prop) (m : Memory) (o : Option Active) : Prop where
  attuned : m.Attuned o
  size_eq : m.regions.size = n
  held : p → i < m.regions.size ∧ (m.region i).IsHeld

theorem Memory.Upheld.mild {n i : Nat} {p : Prop} {m m' : Memory} {o : Option Active} (h : m.Upheld n i p o)
    (hm : m.Mild m') : m'.Upheld n i p o := by
  refine ⟨h.attuned.mild hm, hm.size_eq.trans h.size_eq, fun hp => ?_⟩
  obtain ⟨hi, hr⟩ := h.held hp
  exact ⟨hm.size_eq ▸ hi, hm.held i hi hr⟩

/-- A region is written so that it stays held, and then it is told what runs. -/
theorem Memory.Upheld.modifyRegion {n i : Nat} {p : Prop} {m : Memory} {o o' : Option Active} (h : m.Upheld n i p o)
    (j : Nat) {f : Region → Region} (hf : ∀ r : Region, r.IsHeld → (f r).IsHeld)
    (ha : (m.modifyRegion j f).Attuned o') : (m.modifyRegion j f).Upheld n i p o' := by
  refine ⟨ha, Array.size_modify.trans h.size_eq, fun hp => ?_⟩
  obtain ⟨hi, hr⟩ := h.held hp
  refine ⟨Array.size_modify.symm ▸ hi, ?_⟩
  by_cases hij : j = i
  · subst hij
    rw [region_modifyRegion_same m f hi]
    exact hf _ hr
  · rwa [region_modifyRegion_other m f hij]

theorem Region.isHeld_set {r : Region} (hr : r.IsHeld) {f : Field} (v : Int) (hf : f ∉ [Field.paused, .stop]) :
    (r.set f v).IsHeld := by
  rw [IsHeld, r.get_set_other v fun h => hf (by simp [← h]), r.get_set_other v fun h => hf (by simp [← h])]
  exact hr

/-- **With a discreet engine the worker upholds this.** -/
theorem Engine.Discreet.keeps {E : Engine φ σ} (hE : E.Discreet) (n i : Nat) (p : Prop) :
    E.Keeps (Memory.Upheld n i p) where
  begins {m io e e' left} h hs := by
    have hleft := h.mild (mild_setIo m io (hE.start hs))
    have hbank : ((m.setIo io left).modifyBank io.bank fun bank => { bank with audio := bank.audio.clear }).Upheld
        n i p none := ⟨hleft.attuned, hleft.size_eq, hleft.held⟩
    refine hbank.modifyRegion io.region (fun r hr => Region.isHeld_set hr 1 ?_)
      (hleft.attuned.begin ⟨io, E.mode e'⟩)
    cases E.mode e' <;> decide
  refuses {m io e e' r left} h hs _ _ := h.mild (mild_setIo m io (hE.start hs))
  performs {m a e e' r left} h hp _ := h.mild (mild_setIo m a.io (hE.perform hp))
  marks {m a} h :=
    h.mild (mild_course m a.io.region ((m.region a.io.region).sameCourse_set 1 (f := .cycle) (by decide)))
  unmarks {m a} h :=
    h.mild (mild_course m a.io.region ((m.region a.io.region).sameCourse_set 0 (by decide)))
  ends {m a e e' r left} h hc _ := by
    have hleft := h.mild (mild_setIo m a.io (hE.cleanup hc))
    refine hleft.modifyRegion a.io.region (fun r hr => ?_) hleft.attuned.end
    exact Region.isHeld_set (Region.isHeld_set hr 0 (by decide)) 0 (by decide)

namespace Bench

variable {E : Engine φ σ} {b : Bench φ σ} {a : Active}

/-- What runs after a step has run before. -/
theorem step_active {notified : Bool} (ha : (b.step E notified).active? = some a) : b.active? = some a := by
  cases hb : b.active? with
  | none =>
    rw [step_of_idle E notified hb, hb] at ha
    cases ha
  | some a' =>
    rw [← hb]
    cases step_move E notified b with
    | keeps hk _ => exact hk.symm.trans ha
    | begins _ hn _ _ =>
      rw [hb] at hn
      cases hn
    | ends _ _ hn _ =>
      rw [hn] at ha
      cases ha
    | loses _ hn _ =>
      rw [hn] at ha
      cases ha

/-- What runs after a request has run before, or was asked for. -/
theorem handle_active {r : Request} (ha : (b.handle E r).2.active? = some a) :
    b.active? = some a ∨ ∃ number, r = .start number a.io := by
  cases r with
  | build setup =>
    rw [handle, respond_active?, (build_move E setup b).2] at ha
    cases ha
  | start number io =>
    rcases handle_start_cases E b number io with ⟨-, -, m, hm, -⟩ | ⟨-, hk, -⟩
    · obtain rfl := Option.some.inj (hm.symm.trans ha)
      exact .inr ⟨number, rfl⟩
    · exact .inl (hk.symm.trans ha)
  | reset number =>
    rw [handle_reset_idle] at ha
    cases ha
  | call number op args => exact .inl ((handle_call_active? E b number op args).symm.trans ha)
  | shutdown =>
    rw [handle, (leave_move E b).2] at ha
    cases ha

end Bench

/-! ### The device -/

theorem Io.SameCourse.calms {io io' : Io} (mode : Mode) (h : io.SameCourse io') : io.Calms mode io' :=
  fun hx => (h.busy mode).symm.trans hx

namespace Render

/-- **A device whose callbacks leave the course of a performance alone leaves it alone too**, when it renders. -/
theorem course_law : Law Io.SameCourse Io.SameCourse fun _ _ => True where
  hooks_refl io := .refl io.region
  hooks_trans h h' := h.trans h'
  of_hooks := id
  trans h h' := h.trans h'
  deliver h := h.trans ((Region.sameCourse_set _ _ (by decide)).trans (Region.sameCourse_set _ _ (by decide)))
  output io _ := .refl io.region
  input io _ := .refl io.region
  mark io := io.region.sameCourse_set 1 (f := .cycle) (by decide)
  memory_refl _ := trivial
  memory_trans _ _ := trivial
  setIo _ _ _ _ := trivial
  reset _ _ := trivial
  halt _ _ := trivial

/-- The device adds no region and takes none away. -/
theorem size_law : Law Io.SameCourse (fun _ _ => True) fun m m' => m'.regions.size = m.regions.size where
  hooks_refl io := .refl io.region
  hooks_trans h h' := h.trans h'
  of_hooks _ := trivial
  trans _ _ := trivial
  deliver _ := trivial
  output _ _ := trivial
  input _ _ := trivial
  mark _ := trivial
  memory_refl _ := rfl
  memory_trans h h' := h'.trans h
  setIo _ _ _ _ := Array.size_modify
  reset _ _ := Array.size_modify
  halt _ _ := Array.size_modify

variable {ω : Type}

theorem Device.turn_mild {d : Device ω} (hq : d.Keep Io.SameCourse) (w : ω) (m : Memory) :
    m.Mild (d.turn w m).2.2 := by
  rw [turn]
  split
  · exact .refl m
  · next l hl =>
    simp only [Memory.onIo_eq]
    exact mild_setIo m l.params.io (Loop.turn_keeps course_law (hq.loop l hl) w (m.io l.params.io)).1

theorem Device.tick_mild {d : Device ω} (hq : d.Keep Io.SameCourse) (w : ω) (m : Memory) :
    m.Mild (d.tick w m).2.2 := by
  rw [tick]
  split
  · split
    · next l _ =>
      have hd : Keep Io.SameCourse { d with asleep := if d.realtimeClock then period l.params else 0 } :=
        ⟨hq.hooks, hq.loop⟩
      exact turn_mild hd w m
    · exact .refl m
  · exact .refl m

end Render

theorem Outlets.tick_mild {o : Outlets ω} (hq : o.Keep Io.SameCourse) (m : Memory) :
    m.Mild (o.tick m).2 ∧ (o.tick m).1.Keep Io.SameCourse := by
  refine ⟨?_, (tick_keeps course_law hq m).2⟩
  rw [tick]
  split
  · exact .refl m
  · next d hd => exact Device.tick_mild (hq d hd) o.world m

/-- The entry of a phase adds no region, and none tells of a performance that it did not tell of before. -/
theorem Stage.change_calms {s : Stage (Outlets ω)} (p : PlayState) (hq : s.around.Keep Io.SameCourse) :
    (s.change Outlets.surroundings p).memory.regions.size = s.memory.regions.size ∧
      (∀ mode, Calms mode s.memory (s.change Outlets.surroundings p).memory) ∧
      (s.change Outlets.surroundings p).around.Keep Io.SameCourse :=
  ⟨(change_keeps size_law p hq).1, fun mode => (change_keeps (calms_law mode) p (hq.mono (Io.SameCourse.calms mode))).1,
    (change_keeps course_law p hq).2⟩

/-- The device is not told of a pause, so its entry writes nothing. -/
theorem Stage.change_paused_memory (s : Stage (Outlets ω)) :
    (s.change Outlets.surroundings .realtimePaused).memory = s.memory := by
  show (s.around.emit (.state .realtimePaused)).follow .realtimePaused s.memory |>.2.2 = s.memory
  rw [Outlets.follow]
  split <;> rfl

/-! ### The invariant of a session -/

theorem Transport.armStart_io {t t' : Transport} {c : Nat} (h : t.armStart = (.ok c, t')) : t'.io = t.io := by
  rw [armStart] at h
  split at h
  · cases h
  · cases h
    exact t.dropStart_io

/-- The phases that a running performance of a mode can be in. -/
def Mode.Admits : Mode → PlayState → Prop
  | .realtime, p => p = .realtimeStarted ∨ p = .realtimePaused ∨ p = .realtimeResumed
  | .offline, p => p = .renderStarted

theorem Mode.admits_started (m : Mode) : m.Admits m.started := by
  cases m
  · exact .inl rfl
  · rfl

/-- A performance may be begun with this handle: there is an engine, and the region exists. -/
def Session.Grants (s : Session φ σ ω) (h : Handle) : Prop :=
  s.number ≠ none ∧ h.region < s.memory.regions.size

theorem Session.Grants.mono {s s' : Session φ σ ω} {h : Handle} (hs : s.Grants h) (hn : s'.number = s.number)
    (hm : s.memory.regions.size ≤ s'.memory.regions.size) : s'.Grants h :=
  ⟨hn ▸ hs.1, Nat.lt_of_lt_of_le hs.2 hm⟩

/-- What is known of a session whose worker did not crash. -/
structure Tracks (s : Session φ σ ω) : Prop where
  callbacks : s.outlets.Keep Io.SameCourse
  seated : s.transport.io.region < s.memory.regions.size
  reported : ∀ p ∈ phases s.link.bench.reports, ∃ m : Mode, p = m.started ∨ p = m.ended
  attuned : s.memory.Attuned s.link.bench.active?
  /-- The last phase on its way is one that the performance of this region can be in. -/
  admits : ∀ a, s.link.bench.active? = some a → a.io.region = s.transport.io.region →
    a.mode.Admits (latest s.transport.current (phases s.link.bench.reports))
  held : s.transport.current = .realtimePaused → s.region.IsHeld
  granted : ∀ a, s.link.bench.active? = some a → s.Grants a.io
  left : s.link.bench.life = .left → s.link.bench.active? = none
  takes : s.link.bench.life = .serving → s.link.exchange.takesCalls = true
  asked : ∀ q ∈ s.link.exchange.calls, ∀ n io, q.2 = .start n io → s.Grants io

/-- The same is known of a session that comes after another one, and what was granted still is. -/
structure Follows (s s' : Session φ σ ω) : Prop where
  tracks : Tracks s'
  grants : ∀ {h : Handle}, s.Grants h → s'.Grants h

namespace Tracks

variable {s s' : Session φ σ ω}

theorem refl (h : Tracks s) : Follows s s := ⟨h, id⟩

/-- Who leaves the phase and the worker alone, and changes the memory mildly, keeps it. -/
theorem mild (h : Tracks s) (hq : s'.outlets.Keep Io.SameCourse) (hn : s'.number = s.number)
    (ht : s'.transport.current = s.transport.current) (hio : s'.transport.io = s.transport.io)
    (hb : ∃ m es, s'.link.bench = { s.link.bench with memory := m, reports := es })
    (hr : phases s'.link.bench.reports = phases s.link.bench.reports)
    (hx : s'.link.exchange.takesCalls = s.link.exchange.takesCalls)
    (hc : ∀ q ∈ s'.link.exchange.calls, q ∈ s.link.exchange.calls ∨ ∀ n io, q.2 = .start n io → s.Grants io)
    (hm : s.memory.Mild s'.memory) : Follows s s' := by
  have hgrants : ∀ {io}, s.Grants io → s'.Grants io := fun hg => hg.mono hn (Nat.le_of_eq hm.size_eq.symm)
  obtain ⟨ha, hl⟩ : s'.link.bench.active? = s.link.bench.active? ∧ s'.link.bench.life = s.link.bench.life := by
    obtain ⟨m, es, hb⟩ := hb
    rw [hb]
    exact ⟨rfl, rfl⟩
  refine ⟨⟨hq, ?_, ?_, ?_, ?_, ?_, ?_, ?_, ?_, ?_⟩, hgrants⟩
  · rw [hio, hm.size_eq]
    exact h.seated
  · rw [hr]
    exact h.reported
  · rw [ha]
    exact h.attuned.mild hm
  · rw [ha, hio, ht, hr]
    exact h.admits
  · rw [ht, Session.region, hio]
    exact fun hp => hm.held _ h.seated (h.held hp)
  · rw [ha]
    exact fun a hactive => hgrants (h.granted a hactive)
  · rw [hl, ha]
    exact h.left
  · rw [hl, hx]
    exact h.takes
  · intro q hq n io hio
    rcases hc q hq with hq | hq
    · exact hgrants (h.asked q hq n io hio)
    · exact hgrants (hq n io hio)

/-- A request is submitted. -/
theorem submit (h : Tracks s) {r : Request} (hr : ∀ n io, r = .start n io → s.Grants io) :
    Follows s { s with link := (s.link.submit r).2 } := by
  obtain ⟨hb, -, -, htakes, -, hcalls⟩ := s.link.submit_cases r
  refine h.mild h.callbacks rfl rfl rfl ⟨_, _, hb⟩ (congrArg (phases ·.reports) hb) htakes ?_ ?_
  · intro q hq
    rcases hcalls with ⟨-, -, hc⟩ | ⟨-, -, -, hc⟩
    · exact .inl (hc ▸ hq)
    · have hq' : q ∈ s.link.exchange.calls ++ [(s.link.exchange.nextUid, r)] := hc ▸ hq
      rcases List.mem_append.1 hq' with hq | hq
      · exact .inl hq
      · obtain rfl := List.mem_singleton.1 hq
        exact .inr hr
  · show s.memory.Mild (s.link.submit r).2.bench.memory
    rw [hb]
    exact .refl _

/-! ### The worker moves -/

/-- The memory after a turn of the worker, and what runs then. -/
theorem worker_upheld {E : Engine φ σ} (hE : E.Discreet) (h : Tracks s) (notified : Bool)
    (hl : (s.link.turn E notified).bench.life ≠ .crashed) :
    Memory.Upheld s.memory.regions.size s.transport.io.region (s.transport.current = .realtimePaused)
      (s.link.turn E notified).bench.memory (s.link.turn E notified).bench.active? := by
  have hnow : Memory.Upheld s.memory.regions.size s.transport.io.region (s.transport.current = .realtimePaused)
      s.link.bench.memory s.link.bench.active? := ⟨h.attuned, rfl, fun hp => ⟨h.seated, h.held hp⟩⟩
  cases s.link.turn_cases E notified with
  | rests _ hb _ =>
    rw [hb]
    exact hnow
  | serves q rest _ _ hb _ =>
    rw [hb] at hl ⊢
    exact Bench.handle_keeps (hE.keeps _ _ _) q.2 hnow hl
  | steps _ _ hb _ =>
    rw [hb] at hl ⊢
    exact Bench.step_keeps (hE.keeps _ _ _) notified hnow hl

/-- What the worker performs after its turn was granted. -/
theorem worker_granted {E : Engine φ σ} (h : Tracks s) (notified : Bool) {a : Active}
    (ha : (s.link.turn E notified).bench.active? = some a) : s.Grants a.io := by
  cases s.link.turn_cases E notified with
  | rests _ hb _ =>
    rw [hb] at ha
    exact h.granted a ha
  | serves q rest _ hq hb _ =>
    rw [hb] at ha
    rcases Bench.handle_active ha with ha | ⟨n, hr⟩
    · exact h.granted a ha
    · exact h.asked q (by rw [hq]; exact List.mem_cons_self) n a.io hr
  | steps _ _ hb _ =>
    rw [hb] at ha
    exact h.granted a (Bench.step_active ha)

/-- What the worker has reported after its turn: the phase of what it performs comes last. -/
theorem worker_phases (h : Tracks s) (E : Engine φ σ) (notified : Bool)
    (hl : (s.link.turn E notified).bench.life ≠ .crashed) :
    (∀ p ∈ phases (s.link.turn E notified).bench.reports, ∃ m : Mode, p = m.started ∨ p = m.ended) ∧
      ∀ a, (s.link.turn E notified).bench.active? = some a → a.io.region = s.transport.io.region →
        a.mode.Admits (latest s.transport.current (phases (s.link.turn E notified).bench.reports)) := by
  have happend : ∀ q, (∃ m : Mode, q = m.started ∨ q = m.ended) →
      phases (s.link.turn E notified).bench.reports = phases s.link.bench.reports ++ [q] →
      ∀ p ∈ phases (s.link.turn E notified).bench.reports, ∃ m : Mode, p = m.started ∨ p = m.ended := by
    intro q hq hp p hm
    rw [hp] at hm
    rcases List.mem_append.1 hm with hm | hm
    · exact h.reported p hm
    · obtain rfl := List.mem_singleton.1 hm
      exact hq
  cases s.link.turn_move E notified with
  | keeps ha hp =>
    rw [hp, ha]
    exact ⟨h.reported, h.admits⟩
  | begins a _ ha hp =>
    refine ⟨happend _ ⟨a.mode, .inl rfl⟩ hp, fun a' ha' _ => ?_⟩
    obtain rfl : a = a' := Option.some.inj (ha.symm.trans ha')
    rw [hp, latest_concat]
    exact a.mode.admits_started
  | ends a _ hn hp =>
    refine ⟨happend _ ⟨a.mode, .inr rfl⟩ hp, fun a' ha' => ?_⟩
    rw [hn] at ha'
    cases ha'
  | loses hx _ _ => exact absurd hx hl

/-- A worker that serves after its turn has served before, and takes requests as before. -/
theorem worker_serves (E : Engine φ σ) (l : Link φ σ) (notified : Bool)
    (hl : (l.turn E notified).bench.life = .serving) :
    l.bench.life = .serving ∧ (l.turn E notified).exchange.takesCalls = l.exchange.takesCalls := by
  constructor
  · cases l.turn_cases E notified with
    | rests _ hb _ => rwa [hb] at hl
    | serves _ _ hs _ _ _ => exact hs
    | steps hs _ _ _ => exact hs
  · have hattend : (l.attend E notified).bench.life = .serving := (l.attend E notified).hangUpIfGone_cases.1 ▸ hl
    rw [Link.turn, Link.hangUpIfGone, if_pos hattend, Link.attend, Exchange.take?]
    split
    · rfl
    · cases l.exchange.calls with
      | nil => rfl
      | cons q cs =>
        dsimp only
        cases (l.bench.handle E q.2).1 <;> rfl

/-- A worker that has left after its turn performs nothing. -/
theorem worker_left {E : Engine φ σ} (h : Tracks s) (notified : Bool)
    (hl : (s.link.turn E notified).bench.life = .left) : (s.link.turn E notified).bench.active? = none := by
  cases s.link.turn_cases E notified with
  | rests _ hb _ =>
    rw [hb] at hl ⊢
    exact h.left hl
  | serves q _ hs _ hb _ =>
    rw [hb] at hl ⊢
    exact Bench.handle_left E q.2 hs hl
  | steps hs _ hb _ =>
    rw [hb] at hl
    rcases Bench.step_life E notified s.link.bench with hk | hk
    · rw [hk, hs] at hl
      cases hl
    · rw [hk] at hl
      cases hl

/-- **A turn of the worker keeps it.** -/
theorem worker {E : Engine φ σ} (hE : E.Discreet) (h : Tracks s) (notified : Bool)
    (hl : (s.link.turn E notified).bench.life ≠ .crashed) : Follows s { s with link := s.link.turn E notified } := by
  obtain ⟨hattuned, hsize, hheld⟩ := h.worker_upheld hE notified hl
  obtain ⟨hreported, hadmits⟩ := h.worker_phases E notified hl
  have hgrants : ∀ {io}, s.Grants io → Session.Grants { s with link := s.link.turn E notified } io :=
    fun hg => hg.mono rfl (Nat.le_of_eq hsize.symm)
  refine ⟨⟨h.callbacks, hsize.symm ▸ h.seated, hreported, hattuned, hadmits, fun hp => (hheld hp).2, ?_,
    h.worker_left notified, fun hs => ?_, ?_⟩, hgrants⟩
  · exact fun a ha => hgrants (h.worker_granted notified ha)
  · obtain ⟨hserving, htakes⟩ := worker_serves E s.link notified hs
    exact htakes.trans (h.takes hserving)
  · exact fun q hq n io hio => hgrants (h.asked q ((s.link.turn_exchange E notified).2.1 q hq) n io hio)

/-! ### A phase is entered -/

/-- Before a phase is entered the session is in some order, and no region was taken away; then the phase is the
present one. -/
theorem enter (h : Tracks s) (s' : Session φ σ ω) (t : Stage (Outlets ω)) {p : PlayState} (hn : s'.number = s.number)
    (hx : s'.link.exchange = s.link.exchange) (ha : s'.link.bench.active? = s.link.bench.active?)
    (hl : s'.link.bench.life = s.link.bench.life) (hq : t.around.Keep Io.SameCourse)
    (hm : s.memory.regions.size ≤ t.memory.regions.size)
    (hseated : t.transport.io.region < t.memory.regions.size)
    (hreported : ∀ p ∈ phases s'.link.bench.reports, ∃ m : Mode, p = m.started ∨ p = m.ended)
    (hcalms : ∀ mode, Calms mode s.memory t.memory)
    (hadmits : ∀ a, s.link.bench.active? = some a → a.io.region = t.transport.io.region →
      a.mode.Admits (latest p (phases s'.link.bench.reports)))
    (hheld : p = .realtimePaused → t.region.IsHeld) :
    Follows s (s'.setStage (t.change Outlets.surroundings p)) := by
  obtain ⟨hsize, hcalms', hkeep⟩ := Stage.change_calms p hq
  have hio : (t.change Outlets.surroundings p).transport.io = t.transport.io := by
    rw [Stage.change_transport, Transport.enter_io]
  have hcurrent : (t.change Outlets.surroundings p).transport.current = p := Stage.change_current _ p t
  have hgrants : ∀ {h : Handle}, s.Grants h → (s'.setStage (t.change Outlets.surroundings p)).Grants h :=
    fun h => h.mono hn (Nat.le_trans hm (Nat.le_of_eq hsize.symm))
  refine ⟨⟨hkeep, ?_, hreported, ?_, ?_, ?_, ?_, ?_, ?_, ?_⟩, hgrants⟩
  · show (t.change Outlets.surroundings p).transport.io.region < _
    rw [hio]
    exact hsize.symm ▸ hseated
  · show (t.change Outlets.surroundings p).memory.Attuned s'.link.bench.active?
    rw [ha]
    exact fun mode i hi => h.attuned mode i (hcalms mode i (hcalms' mode i hi))
  · show ∀ a, s'.link.bench.active? = some a → a.io.region = (t.change Outlets.surroundings p).transport.io.region →
      a.mode.Admits (latest (t.change Outlets.surroundings p).transport.current (phases s'.link.bench.reports))
    rw [ha, hio, hcurrent]
    exact hadmits
  · show (t.change Outlets.surroundings p).transport.current = .realtimePaused →
      ((t.change Outlets.surroundings p).memory.region (t.change Outlets.surroundings p).transport.io.region).IsHeld
    rw [hio, hcurrent]
    rintro rfl
    rw [Stage.change_paused_memory]
    exact hheld rfl
  · intro a hactive
    exact hgrants (h.granted a (ha ▸ hactive))
  · show s'.link.bench.life = .left → s'.link.bench.active? = none
    rw [hl, ha]
    exact h.left
  · show s'.link.bench.life = .serving → s'.link.exchange.takesCalls = true
    rw [hl, hx]
    exact h.takes
  · intro q hq n io hr
    have hq' : q ∈ s.link.exchange.calls := hx ▸ hq
    exact hgrants (h.asked q hq' n io hr)

/-- **The dispatcher keeps it**: the phase that it hands on becomes the present one. -/
theorem dispatcher (h : Tracks s) : Follows s s.dispatch := by
  rw [Session.dispatch]
  split
  · next p es hes =>
    have hphases : phases s.link.bench.reports = p :: phases s.link.bench.reports.tail := by
      rw [hes]
      rfl
    refine h.enter s.popReport s.popReport.stage rfl rfl rfl rfl h.callbacks (Nat.le_refl _) h.seated ?_
      (fun _ _ => id) ?_ ?_
    · exact fun q hq => h.reported q (hphases ▸ List.mem_cons_of_mem p hq)
    · intro a ha hio
      have hadmits := h.admits a ha hio
      rwa [hphases, latest_cons] at hadmits
    · rintro rfl
      obtain ⟨m, hm | hm⟩ := h.reported _ (hphases ▸ List.mem_cons_self)
      · cases m <;> cases hm
      · cases m <;> cases hm
  · next line es hes =>
    refine h.mild h.callbacks rfl rfl rfl ⟨_, _, rfl⟩ ?_ rfl (fun _ hq => .inl hq) (.refl _)
    show phases s.link.bench.reports.tail = _
    rw [hes]
    rfl
  · split
    · exact h.mild h.callbacks rfl ((Transport.dropStop_current _).trans s.transport.dropStart_current)
        ((Transport.dropStop_io _).trans s.transport.dropStart_io) ⟨_, _, rfl⟩ rfl rfl (fun _ hq => .inl hq) (.refl _)
    · exact h.refl

/-- A running performance of the region admits a phase of its own, whatever was known before. -/
theorem admits_enter (h : Tracks s) {p : PlayState} (hp : Mode.realtime.Admits p)
    (hr : Stage.isRunning s.region = true) {a : Active} (ha : s.link.bench.active? = some a)
    (hio : a.io.region = s.transport.io.region) : a.mode.Admits (latest p (phases s.link.bench.reports)) := by
  simp only [Stage.isRunning, Bool.and_eq_true, beq_iff_eq] at hr
  obtain ⟨a', ha', -, hmode⟩ := h.attuned .realtime _ hr.2
  obtain rfl : a = a' := Option.some.inj (ha.symm.trans ha')
  by_cases hn : phases s.link.bench.reports = []
  · rw [hn, latest_nil, hmode]
    exact hp
  · rw [latest_of_ne_nil hn _ s.transport.current]
    exact h.admits a ha hio

/-- A pause keeps it: the region is held then. -/
theorem pause (h : Tracks s) : Follows s (s.setStage (s.stage.pause Outlets.surroundings).2) := by
  rw [Stage.pause]
  split
  · next hc =>
    rw [Bool.and_eq_true] at hc
    have hsize : (s.stage.onRegion fun r => r.set .paused 1).memory.regions.size = s.memory.regions.size :=
      Array.size_modify
    refine h.enter s (s.stage.onRegion fun r => r.set .paused 1) rfl rfl rfl rfl h.callbacks
      (Nat.le_of_eq hsize.symm) (hsize.symm ▸ h.seated) h.reported (fun mode => ?_)
      (fun a ha hio => h.admits_enter (.inr (.inl rfl)) hc.2 ha hio) fun _ => ?_
    · refine calms_modifyRegion mode _ _ _ fun hx => ?_
      rwa [Region.get_set_other _ _ (by cases mode <;> decide)] at hx
    · show ((s.memory.modifyRegion s.transport.io.region _).region s.transport.io.region).IsHeld
      rw [region_modifyRegion_same _ _ h.seated]
      exact .inl (Region.get_set_same _ _ _)
  · exact h.refl

theorem resume (h : Tracks s) : Follows s (s.setStage (s.stage.resume Outlets.surroundings).2) := by
  rw [Stage.resume]
  split
  · next hc =>
    rw [Bool.and_eq_true] at hc
    have hsize : (s.stage.onRegion fun r => r.lower .paused).memory.regions.size = s.memory.regions.size :=
      Array.size_modify
    refine h.enter s (s.stage.onRegion fun r => r.lower .paused) rfl rfl rfl rfl h.callbacks
      (Nat.le_of_eq hsize.symm) (hsize.symm ▸ h.seated) h.reported (fun mode => ?_)
      (fun a ha hio => h.admits_enter (.inr (.inr rfl)) hc.2 ha hio) (fun hp => absurd hp (by decide))
    refine calms_modifyRegion mode _ _ _ fun hx => ?_
    rwa [Region.lower, Region.get_notify, Region.get_set_other _ _ (by cases mode <;> decide)] at hx
  · exact h.refl

/-- A region is renewed: nothing runs in the new one. -/
theorem renew (h : Tracks s) : Follows s ((s.setStage s.stage.replaceRegion).change .stopped) := by
  have hsize : s.stage.replaceRegion.memory.regions.size = s.memory.regions.size + 1 := Array.size_push _
  have hlt : s.memory.regions.size < s.stage.replaceRegion.memory.regions.size := by
    rw [hsize]
    exact Nat.lt_succ_self _
  refine h.enter (s.setStage s.stage.replaceRegion) s.stage.replaceRegion rfl rfl rfl rfl h.callbacks
    (Nat.le_of_lt hlt) hlt h.reported (fun mode => calms_allocRegion mode s.memory) ?_ nofun
  intro a ha hio
  exfalso
  have hnew : a.io.region = s.memory.regions.size := hio
  exact Nat.lt_irrefl _ (hnew ▸ (h.granted a ha).2)

/-! ### A client moves -/

/-- An accepted stop leaves the region held; a refused one changes nothing. -/
theorem requestStop_mild (s : Stage (Outlets ω)) :
    s.requestStop.2.transport.current = s.transport.current ∧ s.requestStop.2.transport.io = s.transport.io ∧
      s.memory.Mild s.requestStop.2.memory ∧ s.requestStop.2.around = s.around := by
  rw [Stage.requestStop]
  split
  · exact ⟨rfl, rfl, .refl _, rfl⟩
  · split
    · exact ⟨rfl, rfl, .refl _, rfl⟩
    · refine ⟨s.transport.dropStop_current, Transport.dropStop_io _, ?_, rfl⟩
      show s.memory.Mild (s.memory.modifyRegion s.transport.armStop.2.io.region _)
      refine mild_modifyRegion _ _ (fun mode hx => Stage.signalStop_calms _ mode _ hx) fun _ => .inr ?_
      unfold Stage.signalStop
      dsimp only
      split <;> simp [Region.raise, Region.get_set_other]

/-- **A step of a conversation keeps it.** -/
theorem conversed (h : Tracks s) {task : Lifecycle} {k : Client}
    (hk : ∀ n c io, task = .sendStart n c io → s.Grants io) (hc : Conversed s task k s') : Follows s s' := by
  cases hc with
  | arms hn ht =>
    exact h.mild h.callbacks rfl (Transport.armStart_ok ht).1 (Transport.armStart_io ht) ⟨_, _, rfl⟩ rfl rfl
      (fun _ hq => .inl hq) (.refl _)
  | disarms =>
    exact h.mild h.callbacks rfl s.transport.dropStart_current s.transport.dropStart_io ⟨_, _, rfl⟩ rfl rfl
      (fun _ hq => .inl hq) (.refl _)
  | asksStart _ | cannotAskStart _ =>
    refine h.submit fun n io hr => ?_
    cases hr
    exact hk _ _ _ rfl
  | asksReset _ | cannotAskReset _ => exact h.submit nofun
  | started _ | stopped | hasStopped =>
    exact h.mild h.callbacks rfl rfl rfl ⟨_, _, rfl⟩ rfl rfl (fun _ hq => .inl hq) (.refl _)
  | asksStop hs =>
    obtain ⟨hcurrent, hio, hm, haround⟩ := requestStop_mild s.stage
    refine h.mild ?_ rfl hcurrent hio ⟨_, _, rfl⟩ rfl rfl (fun _ hq => .inl hq) hm
    show s.stage.requestStop.2.around.Keep Io.SameCourse
    rw [haround]
    exact h.callbacks
  | renews => exact h.renew
  | _ => exact h.refl

theorem invoked (h : Tracks s) {task : Invocation} {k : Client} (hc : Invoked s task k s') : Follows s s' := by
  cases hc with
  | asks _ | cannotAsk _ => exact h.submit nofun
  | passes _ _ _ | answered _ => exact h.refl

/-- A start is sent with the handle that the session had when it was asked for. -/
theorem grants_of_step {E : Engine φ σ} {u v : Ensemble φ σ ω} (h : Tracks u.session)
    (hk : ∀ n c io, u.client = .lifecycle (.sendStart n c io) → u.session.Grants io) (hs : Ensemble.Step E u v)
    {n : Int} {c : Nat} {io : Handle} (hv : v.client = .lifecycle (.sendStart n c io)) : u.session.Grants io := by
  rcases hs with hs | hs
  · cases hs <;> cases hv
  · cases hs with
    | turn hturn =>
      obtain rfl := Client.lifecycle.inj hv
      cases Lifecycle.turn_cases hturn with
      | arms hn ht =>
        rw [Transport.armStart_io ht]
        exact ⟨by simp [hn], h.seated⟩
    | worker _ | router | dispatcher | device => exact hk n c io hv
    | _ => cases hv

/-- **Every step keeps it.** -/
theorem step {E : Engine φ σ} (hE : E.Discreet) {u v : Ensemble φ σ ω} (h : Tracks u.session)
    (hk : ∀ n c io, u.client = .lifecycle (.sendStart n c io) → u.session.Grants io)
    (hs : Ensemble.Step E u v) (hl : v.session.link.bench.life ≠ .crashed) : Follows u.session v.session := by
  rcases hs with hs | hs
  · cases hs with
    | pause => exact h.pause
    | resume => exact h.resume
    | _ => exact h.refl
  · cases hs with
    | turn ht => exact h.conversed (fun n c io h => hk n c io (congrArg Client.lifecycle h)) (Lifecycle.turn_cases ht)
    | ends ht => exact h.conversed (fun n c io h => hk n c io (congrArg Client.lifecycle h)) (Lifecycle.ends_cases ht)
    | invoke expired ht => exact h.invoked (Invocation.turn_cases ht)
    | returns expired ht => exact h.invoked (Invocation.ends_cases ht)
    | worker notified => exact h.worker hE notified hl
    | router =>
      refine h.mild h.callbacks rfl rfl rfl ⟨_, _, rfl⟩ rfl ?_
        (fun q hq => .inl (by rwa [Link.route, Exchange.calls_route] at hq)) (.refl _)
      rw [Link.route, Exchange.route]
      split
      · split <;> rfl
      · split <;> rfl
    | dispatcher => exact h.dispatcher
    | device =>
      obtain ⟨hm, hq⟩ := Outlets.tick_mild h.callbacks _
      exact h.mild hq rfl rfl rfl ⟨_, _, rfl⟩ rfl rfl (fun _ hq => .inl hq) hm

/-- Who performs takes requests. -/
theorem takesCalls (h : Tracks s) (hl : s.link.bench.life ≠ .crashed) {a : Active}
    (ha : s.link.bench.active? = some a) : s.link.exchange.takesCalls = true := by
  refine h.takes ?_
  cases hlife : s.link.bench.life with
  | serving => rfl
  | left =>
    rw [h.left hlife] at ha
    cases ha
  | crashed => exact absurd hlife hl

end Tracks

/-! ### The beginning -/

theorem Exchange.takesCalls_route {ρ α : Type} (x : Exchange ρ α) : x.route.takesCalls = x.takesCalls := by
  rw [route]
  split
  · split <;> rfl
  · split <;> rfl

/-- Handing replies out leaves the worker alone, and whether it takes requests. -/
theorem Link.routeAll_takesCalls (l : Link φ σ) :
    l.routeAll.exchange.takesCalls = l.exchange.takesCalls ∧ l.routeAll.bench = l.bench := by
  rw [Link.routeAll]
  generalize List.range (l.exchange.replies.length + 1) = ns
  induction ns generalizing l with
  | nil => exact ⟨rfl, rfl⟩
  | cons n ns ih =>
    obtain ⟨hx, hb⟩ := ih l.route
    exact ⟨hx.trans l.exchange.takesCalls_route, hb⟩

/-- The worker of a session that has just been created takes requests, if it serves. -/
theorem Session.create_takesCalls {E : Engine φ σ} {factory : φ} {config : Config}
    {device : Option (Render.Device ω)} {log : Listener ω} {world : ω} {s : Session φ σ ω}
    (h : create E factory config device log world = .ok s) (hl : s.link.bench.life = .serving) :
    s.link.exchange.takesCalls = true := by
  rw [create] at h
  split at h
  · cases h
  · dsimp only [Link.build] at h
    split at h
    · cases h
    · next hr =>
      cases h
      have hlink := congrArg Prod.snd hr
      dsimp only at hlink hl ⊢
      rw [← hlink] at hl ⊢
      -- the request is served in one turn, and then its reply is handed out
      let b : Bench φ σ :=
        { factory := factory
          memory := (Memory.allocIo {} config.buffers.ringSamples config.buffers.midiCapacity).2 }
      let l : Link φ σ :=
        { bench := b, exchange := { nextUid := 2, pending := [1], calls := [(1, .build ⟨config.engine, []⟩)] } }
      obtain ⟨hx, hb⟩ := (l.turn E false).routeAll_takesCalls
      have hserving : (l.turn E false).bench.life = .serving := hb ▸ hl
      exact hx.trans (Tracks.worker_serves E l false hserving).2

/-! ### A session with its clients -/

/-- A session with its clients. -/
structure SharedSession (φ σ ω ι : Type) where
  session : Session φ σ ω
  client : ι → Client

namespace SharedSession

variable [DecidableEq ι]

/-- A client takes something on or goes on with it, or one of the others moves. -/
inductive Step (E : Engine φ σ) (u : SharedSession φ σ ω ι) : SharedSession φ σ ω ι → Prop where
  | of (i : ι) {v : Ensemble φ σ ω} (h : Ensemble.Step E ⟨u.session, u.client i⟩ v) :
      Step E u ⟨v.session, Function.update u.client i v.client⟩

/-- What can come of a session that has just been created with a device, and of its clients. -/
def Reachable (E : Engine φ σ) (device : Option (Device ω)) (u : SharedSession φ σ ω ι) : Prop :=
  ∃ (factory : φ) (config : Config) (log : Listener ω) (world : ω) (s : Session φ σ ω),
    Session.create E factory config device log world = .ok s ∧
      Relation.ReflTransGen (Step E) ⟨s, fun _ => .free⟩ u

/-- What is known of a session and of the starts that its clients are about to send. -/
structure Tracked (u : SharedSession φ σ ω ι) : Prop where
  tracks : Tracks u.session
  granted : ∀ i n c io, u.client i = .lifecycle (.sendStart n c io) → u.session.Grants io

/-- **Every step of anybody keeps it.** -/
theorem Tracked.step {E : Engine φ σ} (hE : E.Discreet) {u v : SharedSession φ σ ω ι} (h : u.Tracked) (hs : Step E u v)
    (hl : v.session.link.bench.life ≠ .crashed) : v.Tracked := by
  cases hs with
  | @of i v hs =>
    obtain ⟨htracks, hgrants⟩ := h.tracks.step (u := ⟨u.session, u.client i⟩) hE (h.granted i) hs hl
    refine ⟨htracks, fun j n c io hj => ?_⟩
    have hj' : Function.update u.client i v.client j = .lifecycle (.sendStart n c io) := hj
    by_cases hij : j = i
    · subst hij
      rw [Function.update_self] at hj'
      exact hgrants (h.tracks.grants_of_step (u := ⟨u.session, u.client j⟩) (h.granted j) hs hj')
    · rw [Function.update_of_ne hij] at hj'
      exact hgrants (h.granted j n c io hj')

/-- A worker that crashed stays so, whoever moves. -/
theorem life_of_step {E : Engine φ σ} {u v : SharedSession φ σ ω ι} (hs : Step E u v)
    (hl : v.session.link.bench.life ≠ .crashed) : u.session.link.bench.life ≠ .crashed := by
  cases hs with
  | of i hs =>
    cases hs.touched with
    | worker notified _ hv =>
      rw [hv] at hl
      exact u.session.link.turn_life E notified hl
    | dispatcher _ hv =>
      rw [hv] at hl
      exact u.session.dispatch_cases.2.2.2 ▸ hl
    | nobody m hb =>
      rw [hb] at hl
      exact hl

omit [DecidableEq ι] in
/-- This much is known of a session that has just been created. -/
theorem tracked_create {E : Engine φ σ} (hE : E.Discreet) {factory : φ} {config : Config}
    {device : Option (Device ω)} (hd : ∀ d, device = some d → d.Keep Io.SameCourse) {log : Listener ω} {world : ω}
    {s : Session φ σ ω} (hs : Session.create E factory config device log world = .ok s)
    (hl : s.link.bench.life ≠ .crashed) : Tracked (⟨s, fun _ => .free⟩ : SharedSession φ σ ω ι) := by
  obtain ⟨setup, samples, messages, ho, hb, ht, hdevice⟩ := Session.create_cases hs
  obtain ⟨hphases, hidle⟩ := Session.create_settled hs
  let b₀ : Bench φ σ := { factory := factory, memory := (Memory.allocIo {} samples messages).2 }
  have hfirst : Memory.Upheld 1 0 False b₀.memory b₀.active? := by
    refine ⟨fun mode i hi => ?_, rfl, False.elim⟩
    rw [Shows, region_allocIo] at hi
    cases mode <;> exact absurd hi (by decide)
  have hupheld : Memory.Upheld 1 0 False s.link.bench.memory s.link.bench.active? := by
    rw [hb] at hl ⊢
    exact Bench.handle_keeps (hE.keeps 1 0 False) (.build setup) hfirst hl
  refine ⟨⟨?_, ?_, ?_, hupheld.attuned, ?_, ?_, ?_, fun _ => hidle, ?_, ?_⟩, fun i n c io hi => ?_⟩
  · exact fun d h => hd d (hdevice ▸ h)
  · show s.transport.io.region < s.link.bench.memory.regions.size
    rw [hupheld.size_eq, ht]
    exact Nat.one_pos
  · rw [hphases]
    intro p hp
    cases hp
  · rw [hidle]
    intro a ha
    cases ha
  · rw [ht]
    intro hp
    cases hp
  · rw [hidle]
    intro a ha
    cases ha
  · exact Session.create_takesCalls hs
  · have hnil : s.link.exchange.calls = [] := ho.engaged
    rw [hnil]
    intro q hq
    cases hq
  · cases hi

/-- **Whatever the clients do**, with a discreet engine and callbacks that leave the course of performances alone,
this much is known of the session as long as the worker does not crash. -/
theorem tracked_of_reachable {E : Engine φ σ} (hE : E.Discreet) {device : Option (Device ω)}
    (hd : ∀ d, device = some d → d.Keep Io.SameCourse) {u : SharedSession φ σ ω ι} (hu : Reachable E device u)
    (hl : u.session.link.bench.life ≠ .crashed) : u.Tracked := by
  obtain ⟨factory, config, log, world, s, hs, hrun⟩ := hu
  induction hrun with
  | refl => exact tracked_create hE hd hs hl
  | tail _ hstep ih => exact (ih (life_of_step hstep hl)).step hE hstep hl

end SharedSession

end SynthControl
