import SynthControl.Proofs.Undisturbed

/-!
# Performances without an end

The sine engine ends a performance only when its score is over, and a score without a duration never is.  Such a
performance goes on for as long as nobody tells it to stop, however long somebody waits for its end.

* `Memory.SameCourse`, `Outlets.tick_sameCourse` — no region tells of another course than before; a tick of the device
  keeps them so, if its callbacks do;
* `Bench.Endless`, `Endless.step` — a performance that nothing ends, and **a step of the worker**;
* `Session.GoesOn`, `GoesOn.round`, `GoesOn.await` — a session in which one runs, and **what comes of any wait**.
-/

namespace SynthControl

open Render

/-! ### The course of the regions -/

/-- Every region tells of the course that it told of before. -/
def Memory.SameCourse (m m' : Memory) : Prop := ∀ i, (m.region i).SameCourse (m'.region i)

namespace Memory

variable {m m' m'' : Memory}

theorem SameCourse.refl (m : Memory) : m.SameCourse m := fun i => .refl (m.region i)

theorem SameCourse.trans (h : m.SameCourse m') (h' : m'.SameCourse m'') : m.SameCourse m'' :=
  fun i => (h i).trans (h' i)

theorem sameCourse_modifyRegion (m : Memory) (i : Nat) {f : Region → Region}
    (hf : (m.region i).SameCourse (f (m.region i))) : m.SameCourse (m.modifyRegion i f) := by
  intro j
  by_cases hij : i = j
  · subst hij
    by_cases hi : i < m.regions.size
    · rwa [region_modifyRegion_same m f hi]
    · -- a region that does not exist is not changed
      have hsame : (m.modifyRegion i f).region i = m.region i := by
        simp [modifyRegion, region, Array.getD, hi]
      rw [hsame]
      exact .refl _
  · rw [region_modifyRegion_other m f hij]
    exact .refl _

theorem sameCourse_setIo (m : Memory) (h : Handle) {io : Io} (hio : (m.io h).SameCourse io) :
    m.SameCourse (m.setIo h io) :=
  sameCourse_modifyRegion m h.region (f := fun _ => io.region) hio

end Memory

theorem Render.Device.tick_sameCourse {ω : Type} {d : Device ω} (hq : d.Keep Io.SameCourse) (w : ω) (m : Memory) :
    m.SameCourse (d.tick w m).2.2 := by
  have hturn : ∀ d : Device ω, d.Keep Io.SameCourse → m.SameCourse (d.turn w m).2.2 := by
    intro d hq
    rw [turn]
    split
    · exact .refl m
    · next l hl =>
      simp only [Memory.onIo_eq]
      exact m.sameCourse_setIo l.params.io (Loop.turn_keeps course_law (hq.loop l hl) w (m.io l.params.io)).1
  rw [tick]
  split
  · split
    · exact hturn _ ⟨hq.hooks, hq.loop⟩
    · exact .refl m
  · exact .refl m

/-- **A tick of the device leaves the course of every region alone**, if its callbacks do. -/
theorem Outlets.tick_sameCourse {ω : Type} {o : Outlets ω} (hq : o.Keep Io.SameCourse) (m : Memory) :
    m.SameCourse (o.tick m).2 := by
  rw [tick]
  split
  · exact .refl m
  · next d hd => exact Device.tick_sameCourse (hq d hd) o.world m

/-! ### The worker -/

/-- Without a duration, the engine makes another block. -/
theorem Sine.perform_endless (io : Io) {s : Sine} (h : s.duration = none) :
    ∃ e left, s.perform io = (.ok .more, e, left) ∧ e.duration = none ∧ io.SameCourse left := by
  rw [perform, if_neg (by rw [isOver_of_endless h]; decide)]
  by_cases hinput : s.mode = .realtime ∧ s.input.size ≠ 0
  · simp only [if_pos hinput, takeInput]
    split <;> exact ⟨_, _, rfl, h, .refl io.region⟩
  · simp only [if_neg hinput]
    split <;> exact ⟨_, _, rfl, h, .refl io.region⟩

/-- A region in which a performance is under way: it was not told to stop, and in real time it still performs. -/
def Region.IsUnderWay (mode : Mode) (r : Region) : Prop :=
  r.get .stop ≠ 1 ∧ (mode = .realtime → r.get .performing ≠ 0)

theorem Region.SameCourse.isUnderWay {mode : Mode} {r r' : Region} (h : r.SameCourse r') (hr : r.IsUnderWay mode) :
    r'.IsUnderWay mode := by
  rw [IsUnderWay, h .stop (by decide), h .performing (by decide)]
  exact hr

namespace Bench

variable {a : Active} {b : Bench Unit Sine}

/-- A performance runs that has no duration, and nobody ends it. -/
structure Endless (a : Active) (b : Bench Unit Sine) : Prop where
  life : b.life = .serving
  hosted : ∃ e, b.hosted = some ⟨e, some a⟩ ∧ e.duration = none
  underWay : (b.memory.region a.io.region).IsUnderWay a.mode

theorem Endless.active?_eq (h : b.Endless a) : b.active? = some a := by
  obtain ⟨e, hb, -⟩ := h.hosted
  rw [active?, hb]
  rfl

/-- The worker neither rests for lack of a performance nor ends it. -/
theorem Endless.next (h : b.Endless a) : b.next = .awaitResume ∨ b.next = .awaitCycle ∨ b.next = .perform := by
  obtain ⟨hstop, hperforming⟩ := h.underWay
  have hgoes : ((b.memory.region a.io.region).isSet .stop ||
      (a.mode == .realtime && (b.memory.region a.io.region).get .performing == 0)) = false := by
    rw [Bool.or_eq_false_iff, Region.isSet]
    refine ⟨by simpa using hstop, ?_⟩
    cases hmode : a.mode with
    | offline => rfl
    | realtime => simpa using hperforming hmode
  rw [Bench.next, h.active?_eq]
  dsimp only
  rw [hgoes, if_neg Bool.false_ne_true]
  split
  · exact .inl rfl
  · split
    · exact .inr (.inl rfl)
    · exact .inr (.inr rfl)

/-- **A step of the worker keeps it going**, and reports no phase. -/
theorem Endless.step (h : b.Endless a) (notified : Bool) :
    (b.step Sine.engine notified).Endless a ∧
      phases (b.step Sine.engine notified).reports = phases b.reports := by
  obtain ⟨e, hb, hduration⟩ := h.hosted
  rw [Bench.step]
  rcases h.next with hnext | hnext | hnext <;> rw [hnext]
  · exact ⟨h, rfl⟩
  · dsimp only
    rw [awaitCycle, h.active?_eq]
    dsimp only
    split
    · have hcourse := b.memory.sameCourse_modifyRegion a.io.region
        (f := fun r => r.set .cycle 0) (Region.sameCourse_set _ 0 (by decide))
      exact ⟨⟨h.life, h.hosted, (hcourse _).isUnderWay h.underWay⟩, rfl⟩
    · exact ⟨h, rfl⟩
  · dsimp only
    obtain ⟨e', left, hp, hduration', hcourse⟩ := Sine.perform_endless (b.memory.io a.io) hduration
    rw [Bench.perform_more Sine.engine hb hp]
    refine ⟨⟨h.life, ⟨_, rfl, hduration'⟩, ?_⟩, by simp⟩
    have hset := b.memory.sameCourse_setIo a.io hcourse
    rw [memoryBetween]
    split
    · exact (hset _).isUnderWay h.underWay
    · have hraise := (b.memory.setIo a.io left).sameCourse_modifyRegion a.io.region
        (f := fun r => r.raise .cycle) (Region.sameCourse_set _ 1 (by decide))
      exact ((hset.trans hraise) _).isUnderWay h.underWay

end Bench

/-! ### The session -/

namespace Session

variable {ω : Type} {a : Active} {s : Session Unit Sine ω}

/-- A session whose performance has no end: it was begun, no phase is on its way, and nobody asks for anything. -/
structure GoesOn (a : Active) (s : Session Unit Sine ω) : Prop where
  endless : s.link.bench.Endless a
  bears : s.link.exchange.Bears .empty
  silent : phases s.link.bench.reports = []
  callbacks : s.outlets.Keep Io.SameCourse
  playState : s.playState = a.mode.started

namespace GoesOn

theorem serve (h : s.GoesOn a) : GoesOn a { s with link := s.link.serve Sine.engine } := by
  obtain ⟨hendless, hphases⟩ := h.endless.step false
  have hturn := Link.turn_idle h.bears (by simp) h.endless.life hendless.life
  rw [Link.serve, hturn]
  exact ⟨hendless, h.bears, hphases.trans h.silent, h.callbacks, h.playState⟩

theorem tick (h : s.GoesOn a) :
    GoesOn a (setMemory { s with outlets := (s.outlets.tick s.memory).1 } (s.outlets.tick s.memory).2) := by
  have hcourse := Outlets.tick_sameCourse h.callbacks s.memory
  exact ⟨⟨h.endless.life, h.endless.hosted, (hcourse _).isUnderWay h.endless.underWay⟩, h.bears, h.silent,
    (Outlets.tick_keeps course_law h.callbacks s.memory).2, h.playState⟩

theorem settle (h : s.GoesOn a) : s.settle.GoesOn a := by
  obtain ⟨htransport, hmemory, -⟩ := settle_silent h.endless.life h.silent
  obtain ⟨hhosted, -, hlife, -⟩ := s.settle_frame
  refine ⟨⟨hlife.trans h.endless.life, hhosted ▸ h.endless.hosted, ?_⟩, ?_, ?_, s.settle_keep h.callbacks, ?_⟩
  · show (s.settle.memory.region _).IsUnderWay _
    rw [hmemory]
    exact h.endless.underWay
  · rw [s.settle_exchange, Link.routeAll_idle h.bears (by simp)]
    exact h.bears
  · rw [reports_settle]
    rfl
  · rw [Session.playState, htransport]
    exact h.playState

/-- **A round of the others keeps it going.** -/
theorem round (h : s.GoesOn a) : (s.round Sine.engine).2.GoesOn a := by
  have hserved : GoesOn a (if s.link.canServe then { s with link := s.link.serve Sine.engine } else s) := by
    split
    · exact h.serve
    · exact h
  rw [Session.round]
  dsimp only
  generalize (if s.link.canServe = true then _ else _ : Session Unit Sine ω) = s' at hserved ⊢
  refine settle ?_
  split
  · exact hserved.tick
  · exact hserved

/-- **Whatever somebody waits for and however long, the performance goes on.** -/
theorem await (h : s.GoesOn a) (holds : Session Unit Sine ω → Bool) (rounds : Nat) :
    (s.await Sine.engine holds rounds).2.GoesOn a := by
  induction rounds generalizing s with
  | zero => exact h
  | succ rounds ih =>
    have hround := h.round
    rw [Session.await]
    split
    · exact h
    · split
      · next hr =>
        rw [hr] at hround
        exact ih hround
      · next hr =>
        rw [hr] at hround
        exact hround

end GoesOn
end Session
end SynthControl
