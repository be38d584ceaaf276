import SynthControl.Proofs.Completions
import SynthControl.Proofs.Streaming
import SynthControl.Proofs.WellFormed
import SynthControl.Session.Basic

/-!
# A region stays well-formed, whoever writes it

Worker, transport, control side and device write the same words, without a lock and in any order.  What keeps
them in order is that each operation writes only what a word may hold, and that the worker alone raises a word
that tells of a performance, one at a time.

* `Memory.Tame` — a change that keeps the memory sound and raises no word that tells of a performance;
* `Memory.Attuned` — the regions tell of no performance but the one that runs;
* `Stage.change_tame`, `Stage.act_tame` — **no operation of the transport raises such a word**;
* `Sine.sound_keeps`, `Sine.engine_steady` — the sine engine keeps the memory sound and attuned, and never
  crashes;
* `Session.Act`, `Session.act` — the whole operations of all parties;
* `InOrder.act` — **each of them keeps all that**;
* `run_wellFormed` — so **every region is well-formed after any of them in any order**.
-/

namespace SynthControl

open Memory Render

/-! ### Changes of the memory -/

namespace Memory

variable {c : Nat} {m m' m'' : Memory}

/-- A change that keeps the memory sound, and after which no region tells of a performance that it did not tell
of before. -/
structure Tame (c : Nat) (m m' : Memory) : Prop where
  sound : m.Sound c → m'.Sound c
  calms : ∀ mode, Calms mode m m'

theorem Tame.refl (m : Memory) : Tame c m m := ⟨id, fun _ _ => id⟩

theorem Tame.trans (h : Tame c m m') (h' : Tame c m' m'') : Tame c m m'' :=
  ⟨h'.sound ∘ h.sound, fun mode i hi => h.calms mode i (h'.calms mode i hi)⟩

theorem tame_modifyRegion (m : Memory) (i : Nat) {f : Region → Region}
    (hs : ∀ r : Region, r.Sound c → (f r).Sound c)
    (hq : ∀ (mode : Mode) (r : Region), (f r).get mode.busy = 1 → r.get mode.busy = 1) :
    Tame c m (m.modifyRegion i f) :=
  ⟨fun h => h.modifyRegion i (hs _ (h.region i)), fun mode => calms_modifyRegion mode m i f (hq mode _)⟩

theorem tame_setIo (m : Memory) (a : Handle) {io : Io} (hs : (m.io a).Sound c → io.Sound c)
    (hq : ∀ mode, (m.io a).Calms mode io) : Tame c m (m.setIo a io) :=
  ⟨fun h => h.setIo a (hs (h.io a)), fun mode => calms_setIo mode m a io (hq mode)⟩

/-- Writing back what was left by those who kept away changes nothing that counts. -/
theorem tame_aside (m : Memory) (a : Handle) {io : Io} (ha : (m.io a).Aside io) : Tame c m (m.setIo a io) :=
  tame_setIo m a ha.sound fun mode => ha.calms mode

theorem tame_allocRegion (hc : 0 < c) (m : Memory) : Tame c m m.allocRegion.2 :=
  ⟨fun h => h.allocRegion hc, fun mode => calms_allocRegion mode m⟩

/-- A word that does not tell of a performance is written. -/
theorem tame_set (m : Memory) (i : Nat) {f : Field} {v : Int} (hf : f ∈ flagWords) (hv : v = 0 ∨ v = 1)
    (hb : f ∉ [Field.performing, .rendering]) : Tame c m (m.modifyRegion i fun r => r.set f v) := by
  refine tame_modifyRegion m i (fun r h => h.setFlag hf hv) ?_
  intro mode r hx
  have hne : mode.busy ≠ f := by
    rintro rfl
    cases mode <;> simp [Mode.busy] at hb
  rwa [Region.get_set_other _ _ hne] at hx

/-! ### The performance that runs -/

/-- A region that tells of a performance of a mode is the region of the one that runs, and that is its mode. -/
def Attuned (m : Memory) (o : Option Active) : Prop :=
  ∀ mode i, m.Shows mode i → ∃ a, o = some a ∧ a.io.region = i ∧ a.mode = mode

variable {a : Active} {o : Option Active}

theorem Attuned.tame (h : m.Attuned o) (ht : Tame c m m') : m'.Attuned o :=
  fun mode i hi => h mode i (ht.calms mode i hi)

/-- Where nothing runs no region tells of a performance. -/
theorem Attuned.not_shows (h : m.Attuned none) (mode : Mode) (i : Nat) : ¬ m.Shows mode i := by
  intro hi
  obtain ⟨a, ha, -⟩ := h mode i hi
  cases ha

/-- The word of a performance is raised where no other is. -/
theorem Attuned.begin (h : m.Attuned none) (a : Active) :
    (m.modifyRegion a.io.region fun r => r.set a.mode.busy 1).Attuned (some a) := by
  intro mode i hi
  rcases shows_modifyRegion mode hi with ⟨-, hi⟩ | ⟨rfl, hx⟩
  · exact absurd hi (h.not_shows mode i)
  · refine ⟨a, rfl, rfl, ?_⟩
    by_contra hne
    have hbusy : mode.busy ≠ a.mode.busy := by
      revert hne
      cases mode <;> cases a.mode <;> simp [Mode.busy]
    rw [Region.get_set_other _ _ hbusy] at hx
    exact h.not_shows mode _ hx

/-- Both words are lowered where the performance ran, and no other region had one raised. -/
theorem Attuned.end (h : m.Attuned (some a)) :
    (m.modifyRegion a.io.region fun r => (r.set .performing 0).set .rendering 0).Attuned none := by
  intro mode i hi
  exfalso
  rcases shows_modifyRegion mode hi with ⟨hne, hi⟩ | ⟨-, hx⟩
  · obtain ⟨a', ha, hregion, -⟩ := h mode i hi
    obtain rfl := Option.some.inj ha
    exact hne hregion.symm
  · cases mode with
    | realtime =>
      rw [Mode.busy, Region.get_set_other _ _ (by decide), Region.get_set_same] at hx
      exact absurd hx (by decide)
    | offline =>
      rw [Mode.busy, Region.get_set_same] at hx
      exact absurd hx (by decide)

/-- A region does not tell of two performances. -/
theorem Attuned.wellFormed (h : m.Attuned o) (hs : m.Sound c) (i : Nat) : (m.region i).WellFormed c := by
  refine Region.wellFormed_iff.2 ⟨hs.region i, ?_⟩
  intro ⟨hperforming, hrendering⟩
  obtain ⟨a, ha, -, hmode⟩ := h .realtime i hperforming
  obtain ⟨a', ha', -, hmode'⟩ := h .offline i hrendering
  obtain rfl : a = a' := Option.some.inj (ha.symm.trans ha')
  rw [hmode] at hmode'
  cases hmode'

end Memory

/-! ### The transport -/

namespace Stage

variable {ω : Type} {c : Nat} {s : Stage (Outlets ω)}

theorem signalStop_sound (current : PlayState) {r : Region} (h : r.Sound c) :
    (signalStop current r).Sound c := by
  have hlifted : (if current = .realtimePaused then r.lower .paused else r).Sound c := by
    split
    · exact h.lower (by decide)
    · exact h
  have hstopped := (hlifted.setFlag (f := .stop) (by decide) (.inr rfl)).setFlag (f := .performing) (by decide)
    (.inl rfl)
  unfold signalStop
  dsimp only
  split
  · exact hstopped
  · exact hstopped.raise (by decide)

theorem signalStop_calms (current : PlayState) (mode : Mode) (r : Region)
    (hx : (signalStop current r).get mode.busy = 1) : r.get mode.busy = 1 := by
  cases mode with
  | realtime =>
    exfalso
    cases current <;> simp [signalStop, Mode.busy, Region.raise, Region.get_set_other] at hx
  | offline =>
    cases current <;>
      simpa [signalStop, Mode.busy, Region.raise, Region.lower, Region.get_set_other] using hx

variable (hc : 0 < c) (hword : Midi.recordSize * c < 2 ^ 31)
include hc hword

/-- **The entry of a phase raises no word that tells of a performance.** -/
theorem change_tame (p : PlayState) (hq : s.around.Keep Io.Aside) :
    Tame c s.memory (s.change Outlets.surroundings p).memory ∧
      (s.change Outlets.surroundings p).around.Keep Io.Aside := by
  obtain ⟨hsound, hkeep⟩ := change_keeps (sound_law hc hword) p hq
  refine ⟨⟨hsound, ?_⟩, hkeep⟩
  intro mode
  exact (change_keeps (calms_law mode) p (hq.mono (Io.Aside.calms mode))).1

theorem pause_tame (hq : s.around.Keep Io.Aside) :
    Tame c s.memory (s.pause Outlets.surroundings).2.memory ∧
      (s.pause Outlets.surroundings).2.around.Keep Io.Aside := by
  rw [pause]
  split
  · have h := change_tame (s := s.onRegion fun r => r.set .paused 1) hc hword .realtimePaused hq
    exact ⟨(tame_set _ _ (by decide) (.inr rfl) (by decide)).trans h.1, h.2⟩
  · exact ⟨.refl _, hq⟩

theorem resume_tame (hq : s.around.Keep Io.Aside) :
    Tame c s.memory (s.resume Outlets.surroundings).2.memory ∧
      (s.resume Outlets.surroundings).2.around.Keep Io.Aside := by
  rw [resume]
  split
  · have h := change_tame (s := s.onRegion fun r => r.lower .paused) hc hword .realtimeResumed hq
    refine ⟨(tame_modifyRegion _ _ (fun r hr => hr.lower (by decide)) ?_).trans h.1, h.2⟩
    intro mode r hx
    rwa [Region.lower, Region.get_notify, Region.get_set_other _ _ (by cases mode <;> decide)] at hx
  · exact ⟨.refl _, hq⟩

omit hc hword in
theorem requestStop_tame :
    Tame c s.memory s.requestStop.2.memory ∧ s.requestStop.2.around = s.around := by
  rw [requestStop]
  split
  · exact ⟨.refl _, rfl⟩
  · split
    · exact ⟨.refl _, rfl⟩
    · exact ⟨tame_modifyRegion _ _ (fun r hr => signalStop_sound _ hr)
        (fun mode r hx => signalStop_calms _ mode r hx), rfl⟩

/-- **No operation of the transport raises a word that tells of a performance.** -/
theorem act_tame (op : Transport.Op) (hq : s.around.Keep Io.Aside) :
    Tame c s.memory (s.act Outlets.surroundings op).2.memory ∧
      (s.act Outlets.surroundings op).2.around.Keep Io.Aside := by
  cases op with
  | change p => exact change_tame hc hword p hq
  | pause => exact pause_tame hc hword hq
  | resume => exact resume_tame hc hword hq
  | requestStop =>
    have h := requestStop_tame (c := c) (s := s)
    refine ⟨h.1, ?_⟩
    show s.requestStop.2.around.Keep Io.Aside
    rw [h.2]
    exact hq
  | replaceRegion => exact ⟨tame_allocRegion hc _, hq⟩
  | armStart | dropStart | disconnect | take _ => exact ⟨.refl _, hq⟩

end Stage

/-! ### The sine engine -/

namespace Sine

variable {c : Nat} {s e : Sine} {io left : Io}

theorem flag_bit (b : Bool) : flag b = 0 ∨ flag b = 1 := by cases b <;> decide

theorem publish_sound (s : Sine) {r : Region} (h : r.Sound c) : (s.publish r).Sound c := by
  rw [publish]
  refine .setFlag (.setFlag (.set (.set (.set (.set (.set (.set h ?_) ?_) ?_) ?_) ?_) ?_) (by decide)
    (flag_bit _)) (by decide) (flag_bit _) <;> exact trivial

theorem publish_busy (s : Sine) (mode : Mode) (r : Region) :
    (s.publish r).get mode.busy = r.get mode.busy := by
  cases mode <;> simp [publish, Mode.busy, Region.get_set_other]

theorem perform_aside {r : Attempt BlockEnd} (hp : s.perform io = (r, e, left)) :
    io.Aside left ∧ r ≠ .crashed := by
  rw [perform] at hp
  split at hp
  · cases hp
    exact ⟨⟨rfl, rfl⟩, by simp⟩
  · by_cases hinput : s.mode = .realtime ∧ s.input.size ≠ 0
    · simp only [if_pos hinput, takeInput] at hp
      split at hp <;> cases hp <;> exact ⟨⟨rfl, rfl⟩, by simp⟩
    · simp only [if_neg hinput] at hp
      split at hp <;> cases hp <;> exact ⟨⟨rfl, rfl⟩, by simp⟩

theorem start_tame (m : Memory) (a : Handle) {r : Attempt Int} (hs : s.start (m.io a) = (r, e, left)) :
    Tame c m (m.setIo a left) := by
  obtain ⟨rfl, -⟩ := start_left hs
  refine tame_setIo m a (fun h => ⟨publish_sound s h.region, h.ring⟩) ?_
  intro mode hx
  rwa [publish_busy] at hx

/-- **The sine engine keeps the memory sound**, and the regions tell of no performance but the one that runs. -/
theorem sound_keeps : engine.Keeps fun m o => m.Sound c ∧ m.Attuned o where
  begins {m io e e' left} h hs := by
    obtain ⟨hsound, hattuned⟩ := h
    have ht : Tame c m (m.setIo io left) := start_tame m io hs
    have hbank := (ht.sound hsound).modifyBank io.bank
      (f := fun bank => { bank with audio := bank.audio.clear }) ((ht.sound hsound).ring io.bank)
    refine ⟨hbank.modifyRegion io.region ((hbank.region _).setFlag ?_ (.inr rfl)), ?_⟩
    · cases engine.mode e' <;> decide
    · exact Attuned.begin (hattuned.tame ht) ⟨io, engine.mode e'⟩
  refuses {m io e e' r left} h hs _ _ := by
    have ht : Tame c m (m.setIo io left) := start_tame m io hs
    exact ⟨ht.sound h.1, h.2.tame ht⟩
  performs {m a e e' r left} h hp _ := by
    have ht : Tame c m (m.setIo a.io left) := tame_aside m a.io (perform_aside hp).1
    exact ⟨ht.sound h.1, h.2.tame ht⟩
  marks {m a} h := by
    have ht : Tame c m (m.modifyRegion a.io.region fun r => r.raise .cycle) := by
      refine tame_modifyRegion m _ (fun r hr => hr.raise (by decide)) ?_
      intro mode r hx
      rwa [Region.raise, Region.get_notify, Region.get_set_other _ _ (by cases mode <;> decide)] at hx
    exact ⟨ht.sound h.1, h.2.tame ht⟩
  unmarks {m a} h := by
    have ht : Tame c m (m.modifyRegion a.io.region fun r => r.set .cycle 0) :=
      tame_set m _ (by decide) (.inl rfl) (by decide)
    exact ⟨ht.sound h.1, h.2.tame ht⟩
  ends {m a e e' r left} h hx _ := by
    obtain ⟨r', e₁, heq, -⟩ := cleanup_keeps (m.io a.io) e
    obtain rfl : m.io a.io = left := congrArg (·.2.2) (heq.symm.trans hx)
    have ht : Tame c m (m.setIo a.io (m.io a.io)) := tame_aside m a.io ⟨rfl, rfl⟩
    have hsound := ht.sound h.1
    refine ⟨hsound.modifyRegion _ ?_, (h.2.tame ht).end⟩
    exact ((hsound.region _).setFlag (by decide) (.inl rfl)).setFlag (by decide) (.inl rfl)

/-- The sine engine never crashes. -/
theorem engine_steady : engine.Steady where
  start _ _ := (start_left rfl).2
  perform _ _ := (perform_aside rfl).2
  cleanup io s := by
    obtain ⟨r, e, heq, hr⟩ := cleanup_keeps io s
    show (s.cleanup io).1 ≠ .crashed
    rwa [heq]
  reset s := by
    show s.reset.1 ≠ .crashed
    rw [reset]
    split <;> simp
  call op args s := by
    show (s.call op args).1 ≠ .crashed
    rw [call]
    split <;> simp

end Sine

/-! ### All parties -/

namespace Session

variable {φ σ ω : Type}

/-- A whole operation of one of the parties. -/
inductive Act where
  /-- The worker serves a request. -/
  | request (r : Request)
  /-- The worker makes a step, or ends the performance of its own accord. -/
  | step (notified : Bool)
  | finish
  /-- The transport is asked for something, or enters a phase. -/
  | transport (op : Transport.Op)
  /-- A MIDI message is queued, all of them are taken out, or a region begins anew. -/
  | midi (h : Handle) (op : Midi.Op)
  /-- The device has its turn: a cycle, if one is due. -/
  | tick
  /-- The device is no longer wanted. -/
  | dropDevice

/-- The session after an operation. -/
def act (E : Engine φ σ) (s : Session φ σ ω) : Act → Session φ σ ω
  | .request r => { s with link.bench := (s.link.bench.handle E r).2 }
  | .step notified => { s with link.bench := s.link.bench.step E notified }
  | .finish => { s with link.bench := s.link.bench.finish E }
  | .transport op => s.setStage (s.stage.act Outlets.surroundings op).2
  | .midi h op =>
    let io := s.memory.io h
    let (_, ring, region) := op.onRing (io.bank.midi, io.region)
    s.setMemory (s.memory.setIo h { io with region := region, bank.midi := ring })
  | .tick => { s with outlets := (s.outlets.tick s.memory).1 }.setMemory (s.outlets.tick s.memory).2
  | .dropDevice => { s with outlets := (s.outlets.drop s.memory).1 }.setMemory (s.outlets.drop s.memory).2

/-- Queueing a message for the device is one of these. -/
theorem sendMidi_eq_act (E : Engine φ σ) (m : Midi.Message) (s : Session φ σ ω) :
    (s.sendMidi m).2 = s.act E (.midi s.transport.io (.enqueue m)) := by
  rw [sendMidi, onIo, Memory.onIo_eq]
  rfl

/-- The words are in order: the memory is sound, its regions tell of no performance but the one that runs, the
callbacks keep away from it, and the worker did not crash. -/
structure InOrder (c : Nat) (s : Session Unit Sine ω) : Prop where
  sound : s.memory.Sound c
  attuned : s.memory.Attuned s.link.bench.active?
  callbacks : s.outlets.Keep Io.Aside
  alive : s.link.bench.life ≠ .crashed

namespace InOrder

variable {c : Nat} {s : Session Unit Sine ω}

/-- Whoever is not the worker may change the memory tamely. -/
theorem tame {s' : Session Unit Sine ω} (h : s.InOrder c) (hm : Tame c s.memory s'.memory)
    (hq : s'.outlets.Keep Io.Aside) (ha : s'.link.bench.active? = s.link.bench.active?)
    (hl : s'.link.bench.life = s.link.bench.life) : s'.InOrder c := by
  refine ⟨hm.sound h.sound, ?_, hq, ?_⟩
  · rw [ha]
    exact h.attuned.tame hm
  · rw [hl]
    exact h.alive

variable (hc : 0 < c) (hword : Midi.recordSize * c < 2 ^ 31)
include hc hword

theorem midi (h : s.InOrder c) (a : Handle) (op : Midi.Op) : (s.act Sine.engine (.midi a op)).InOrder c := by
  refine h.tame (tame_setIo _ _ ?_ ?_) h.callbacks rfl rfl
  · intro hio
    cases op with
    | enqueue m => exact ⟨hio.ring.enqueue hio.region hword m, hio.ring.enqueue_ring _ m⟩
    | drain => exact ⟨hio.ring.drain hio.region hword, hio.ring⟩
    | reset => exact ⟨Region.sound_reset hc _, hio.ring⟩
    | replace => exact ⟨Region.sound_fresh hc, hio.ring⟩
  · intro mode hx
    exact Midi.Op.busy_of_onRing mode op hx

/-- **Every operation keeps the words in order.** -/
theorem act (h : s.InOrder c) (a : Act) : (s.act Sine.engine a).InOrder c := by
  have hkept : s.memory.Sound c ∧ s.memory.Attuned s.link.bench.active? := ⟨h.sound, h.attuned⟩
  cases a with
  | request r =>
    have hl := Bench.handle_steady Sine.engine_steady r h.alive
    have hk := Bench.handle_keeps Sine.sound_keeps r hkept hl
    exact ⟨hk.1, hk.2, h.callbacks, hl⟩
  | step notified =>
    have hl := Bench.step_steady Sine.engine_steady notified h.alive
    have hk := Bench.step_keeps Sine.sound_keeps notified hkept hl
    exact ⟨hk.1, hk.2, h.callbacks, hl⟩
  | finish =>
    have hl := Bench.finish_steady Sine.engine_steady h.alive
    have hk := Bench.finish_keeps Sine.sound_keeps hkept hl
    exact ⟨hk.1, hk.2, h.callbacks, hl⟩
  | transport op =>
    have ht := Stage.act_tame (s := s.stage) hc hword op h.callbacks
    exact h.tame ht.1 ht.2 rfl rfl
  | midi a op => exact h.midi hc hword a op
  | tick =>
    obtain ⟨hsound, hkeep⟩ := Outlets.tick_keeps (sound_law hc hword) h.callbacks s.memory
    refine h.tame ⟨hsound, ?_⟩ hkeep rfl rfl
    intro mode
    exact (Outlets.tick_keeps (calms_law mode) (h.callbacks.mono (Io.Aside.calms mode)) s.memory).1
  | dropDevice =>
    obtain ⟨hsound, hkeep⟩ := Outlets.drop_keeps (sound_law hc hword) h.callbacks s.memory
    refine h.tame ⟨hsound, ?_⟩ hkeep rfl rfl
    intro mode
    exact (Outlets.drop_keeps (calms_law mode) (h.callbacks.mono (Io.Aside.calms mode)) s.memory).1

theorem run (h : s.InOrder c) (acts : List Act) : (acts.foldl (Session.act Sine.engine) s).InOrder c := by
  induction acts generalizing s with
  | nil => exact h
  | cons a acts ih => exact ih (h.act hc hword a)

end InOrder

/-- **Every region stays well-formed**, from a pristine region and an empty MIDI ring on, whatever the worker with
a sine engine, the transport, the control side and the device do, and in whatever order, if every operation is a
whole and the callbacks of the device keep away from region and MIDI ring. -/
theorem run_wellFormed {samples messages : Nat} (hword : Midi.recordSize * messages < 2 ^ 31)
    {s : Session Unit Sine ω} (hmemory : s.memory = (Memory.allocIo {} samples messages).2)
    (halive : s.link.bench.life ≠ .crashed) (hcallbacks : s.outlets.Keep Io.Aside) (acts : List Act) (i : Nat) :
    ((acts.foldl (act Sine.engine) s).memory.region i).WellFormed (max messages 1) := by
  have hpos : 0 < max messages 1 := Nat.lt_of_lt_of_le Nat.one_pos (Nat.le_max_right _ _)
  have hbound : Midi.recordSize * max messages 1 < 2 ^ 31 := by
    rw [Midi.recordSize] at hword ⊢
    omega
  have hfirst : s.InOrder (max messages 1) := by
    refine ⟨?_, ?_, hcallbacks, halive⟩
    · rw [hmemory]
      exact Memory.sound_allocIo samples messages
    · intro mode i hi
      rw [hmemory, Shows, Memory.region_allocIo] at hi
      cases mode <;> exact absurd hi (by decide)
  have hlast := hfirst.run hpos hbound acts
  exact hlast.attuned.wellFormed hlast.sound i

/-- A performance that was begun, rendered for a cycle and paused, with a message still queued. -/
theorem run_wellFormed_paused :
    let hooks : Hooks Nat := { sink := some fun _ _ n io => ⟨n + 1, io, false⟩ }
    let s : Session Unit Sine Nat :=
      { link := { bench := { factory := (), memory := (Memory.allocIo {} 256 4).2 } }
        transport := { io := ⟨0, 0⟩ }
        outlets := { bus := ⟨{}, 0⟩, device := some (.create false hooks) } }
    let acts : List Act := [.request (.build {}), .request (.start 1 ⟨0, 0⟩), .transport (.change .realtimeStarted),
      .step false, .midi ⟨0, 0⟩ (.enqueue ⟨144, 60, 100⟩), .tick, .transport .pause]
    let r := (acts.foldl (act Sine.engine) s).memory.region 0
    r.get .performing = 1 ∧ r.get .paused = 1 ∧ r.get .midiPending = 1 ∧ r.get .cycle = 1 ∧ r.WellFormed 4 := by
  intro hooks s acts r
  refine ⟨?_, ?_, ?_, ?_, ?_⟩
  · decide +kernel
  · decide +kernel
  · decide +kernel
  · decide +kernel
  · refine run_wellFormed (s := s) (by decide) rfl (by decide) ?_ acts 0
    intro d hd
    obtain rfl := Option.some.inj hd
    refine Device.create_keep ⟨by simp [hooks], ?_, by simp [hooks]⟩ false
    intro f hf xs n w io
    obtain rfl := Option.some.inj hf
    exact ⟨rfl, rfl⟩

end Session
end SynthControl
