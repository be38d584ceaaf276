import SynthControl.Proofs.Indifference
import SynthControl.Proofs.Coherence

/-!
# Who writes which word

Each word of a region has a side that is to write it, and nothing but the code of the sides sees to that.  What an
operation leaves alone is said for any set of words that it may write: those of its side and the shared ones, and
whatever an engine, a listener, a coordinator or a callback may write that it runs.

* `Writer.MayWrite` — the words of a side, and those that are shared;
* `Region.ModifiesOnly`, `Memory.ModifiesOnly` — nothing but some words changes, in a region and in all of them;
* `Engine.ModifiesOnly`, `Bench.step_modifiesOnly`, `Bench.handle_modifiesOnly` — **the engine's side**;
* `Surroundings.ModifiesOnly`, `Stage.overrides`, `Stage.act_modifiesOnly` — **the control side**: an end reinitialises
  its region, and a stop lowers the word of a realtime performance, but besides that it keeps to its words;
* `Hooks.Keep (Io.ModifiesOnly P)`, `Device.halted`, `Device.drop_modifiesOnly` — **the render side**: a device that is
  dropped raises the word for a stop, but besides that it keeps to its words;
* `Session.Act.MayWrite`, `Session.act_modifiesOnly` — all sides together;
* `roles_respected` — **nobody writes the words of another side**, these three cases apart.
-/

namespace SynthControl

open Render

/-! ### Words that may be written -/

/-- The words that a side may write: its own and the shared ones. -/
def Writer.MayWrite (w : Writer) (f : Field) : Prop := f.writer = w ∨ f.writer = .shared

instance (w : Writer) : DecidablePred w.MayWrite := fun _ => inferInstanceAs (Decidable (_ ∨ _))

/-- From one region to the next nothing but words of `P` changes. -/
def Region.ModifiesOnly (P : Field → Prop) (r r' : Region) : Prop := ∀ f, ¬P f → r'.get f = r.get f

/-- The same of the regions of some rings. -/
def Io.ModifiesOnly (P : Field → Prop) (io io' : Io) : Prop := io.region.ModifiesOnly P io'.region

/-- The same of all regions of a memory. -/
def Memory.ModifiesOnly (P : Field → Prop) (m m' : Memory) : Prop := ∀ i, (m.region i).ModifiesOnly P (m'.region i)

section

variable {P Q : Field → Prop}

namespace Region

variable {r r' r'' : Region}

theorem ModifiesOnly.refl (r : Region) : r.ModifiesOnly P r := fun _ _ => rfl

theorem ModifiesOnly.trans (h : r.ModifiesOnly P r') (h' : r'.ModifiesOnly P r'') : r.ModifiesOnly P r'' :=
  fun f hf => (h' f hf).trans (h f hf)

theorem ModifiesOnly.mono (hle : ∀ f, P f → Q f) (h : r.ModifiesOnly P r') : r.ModifiesOnly Q r' :=
  fun f hf => h f (mt (hle f) hf)

theorem ModifiesOnly.set (h : r.ModifiesOnly P r') {f : Field} (hf : P f) (v : Int) :
    r.ModifiesOnly P (r'.set f v) := by
  intro g hg
  have hne : g ≠ f := by
    rintro rfl
    exact hg hf
  rw [get_set_other r' v hne, h g hg]

theorem modifiesOnly_set (r : Region) (f : Field) (v : Int) : r.ModifiesOnly (· = f) (r.set f v) :=
  ModifiesOnly.set (P := (· = f)) (.refl r) rfl v

theorem ModifiesOnly.notify (h : r.ModifiesOnly P r') (f : Field) : r.ModifiesOnly P (r'.notify f) := h

theorem ModifiesOnly.raise (h : r.ModifiesOnly P r') {f : Field} (hf : P f) : r.ModifiesOnly P (r'.raise f) :=
  (h.set hf 1).notify f

theorem ModifiesOnly.lower (h : r.ModifiesOnly P r') {f : Field} (hf : P f) : r.ModifiesOnly P (r'.lower f) :=
  (h.set hf 0).notify f

theorem ModifiesOnly.add (h : r.ModifiesOnly P r') {f : Field} (hf : P f) (d : Int) : r.ModifiesOnly P (r'.add f d) :=
  h.set hf _

end Region

namespace Memory

variable {m m' m'' : Memory}

theorem ModifiesOnly.refl (m : Memory) : m.ModifiesOnly P m := fun i => .refl (m.region i)

theorem ModifiesOnly.trans (h : m.ModifiesOnly P m') (h' : m'.ModifiesOnly P m'') : m.ModifiesOnly P m'' :=
  fun i => (h i).trans (h' i)

theorem ModifiesOnly.mono (hle : ∀ f, P f → Q f) (h : m.ModifiesOnly P m') : m.ModifiesOnly Q m' :=
  fun i => (h i).mono hle

/-- A change of one region shows there, if it exists, and nowhere else. -/
theorem region_modifyRegion (m : Memory) (i j : Nat) (f : Region → Region) :
    (m.modifyRegion i f).region j = if i = j ∧ j < m.regions.size then f (m.region j) else m.region j := by
  by_cases hij : i = j
  · subst hij
    by_cases hi : i < m.regions.size
    · rw [region_modifyRegion_same m f hi, if_pos ⟨rfl, hi⟩]
    · rw [if_neg fun h => hi h.2]
      simp [modifyRegion, region, Array.getD, hi]
  · rw [region_modifyRegion_other m f hij, if_neg fun h => hij h.1]

/-- A change of one region is held to what it does to this region. -/
theorem modifiesOnly_modifyRegion (m : Memory) (i : Nat) {f : Region → Region}
    (hf : (m.region i).ModifiesOnly P (f (m.region i))) : m.ModifiesOnly P (m.modifyRegion i f) := by
  intro j
  rw [region_modifyRegion]
  split
  · next h => exact h.1 ▸ hf
  · exact .refl _

/-- Two changes of one region differ in what they do to this region. -/
theorem modifyRegion_modifiesOnly (m : Memory) (i : Nat) {f g : Region → Region}
    (hfg : ∀ r : Region, (f r).ModifiesOnly P (g r)) : (m.modifyRegion i f).ModifiesOnly P (m.modifyRegion i g) := by
  intro j
  rw [region_modifyRegion, region_modifyRegion]
  split
  · exact hfg _
  · exact .refl _

theorem ModifiesOnly.modifyRegion (h : m.ModifiesOnly P m') (i : Nat) {f : Region → Region}
    (hf : ∀ r : Region, r.ModifiesOnly P (f r)) : m.ModifiesOnly P (m'.modifyRegion i f) :=
  h.trans (modifiesOnly_modifyRegion m' i (hf _))

theorem ModifiesOnly.modifyBank (h : m.ModifiesOnly P m') (i : Nat) (f : Bank → Bank) :
    m.ModifiesOnly P (m'.modifyBank i f) := h

theorem modifiesOnly_setIo (m : Memory) (h : Handle) {io : Io} (hio : (m.io h).ModifiesOnly P io) :
    m.ModifiesOnly P (m.setIo h io) :=
  modifiesOnly_modifyRegion m h.region (f := fun _ => io.region) hio

/-- A region that did not exist reads like a fresh one. -/
theorem modifiesOnly_allocRegion (m : Memory) : m.ModifiesOnly P m.allocRegion.2 := by
  intro i f _
  simp only [allocRegion, region, Array.getD_eq_getD_getElem?, Array.getElem?_push]
  split
  · next hi => simp [hi]
  · rfl

end Memory

/-! ### The engine's side -/

/-- The methods of an engine modify nothing but words of `P`. -/
structure Engine.ModifiesOnly {φ σ : Type} (E : Engine φ σ) (P : Field → Prop) : Prop where
  start (io : Io) (e : σ) : io.ModifiesOnly P (E.start io e).2.2
  perform (io : Io) (e : σ) : io.ModifiesOnly P (E.perform io e).2.2
  cleanup (io : Io) (e : σ) : io.ModifiesOnly P (E.cleanup io e).2.2

namespace Sine

/-- What an engine publishes are words of the engine. -/
theorem publish_modifiesOnly (s : Sine) (r : Region) : r.ModifiesOnly (·.writer = .engine) (s.publish r) := by
  rw [publish]
  refine .set (.set (.set (.set (.set (.set (.set (.set (.refl r) ?_ _) ?_ _) ?_ _) ?_ _) ?_ _) ?_ _) ?_ _) ?_ _ <;> rfl

theorem start_modifiesOnly (io : Io) (s : Sine) : io.ModifiesOnly (·.writer = .engine) (s.start io).2.2 := by
  rcases hs : s.start io with ⟨r, e, left⟩
  obtain ⟨rfl, -⟩ := start_left hs
  exact s.publish_modifiesOnly io.region

theorem perform_region (io : Io) (s : Sine) : (s.perform io).2.2.region = io.region := by
  rcases hp : s.perform io with ⟨r, e, left⟩
  exact (perform_aside hp).1.1

theorem cleanup_io (io : Io) (s : Sine) : (s.cleanup io).2.2 = io := by
  obtain ⟨r, e, heq, -⟩ := cleanup_keeps io s
  rw [heq]

/-- **The sine engine modifies nothing but words of the engine.** -/
theorem engine_modifiesOnly : engine.ModifiesOnly (·.writer = .engine) where
  start := start_modifiesOnly
  perform io s := by
    show io.ModifiesOnly _ (s.perform io).2.2
    rw [Io.ModifiesOnly, perform_region]
    exact .refl _
  cleanup io s := by
    show io.ModifiesOnly _ (s.cleanup io).2.2
    rw [cleanup_io]
    exact .refl io.region

end Sine

theorem Engine.ModifiesOnly.mono {φ σ : Type} {E : Engine φ σ} (hle : ∀ f, P f → Q f) (h : E.ModifiesOnly P) :
    E.ModifiesOnly Q :=
  ⟨fun io e => (h.start io e).mono hle, fun io e => (h.perform io e).mono hle, fun io e => (h.cleanup io e).mono hle⟩

namespace Bench

variable {φ σ : Type} {E : Engine φ σ} (hP : ∀ f, Writer.engine.MayWrite f → P f) (hE : E.ModifiesOnly P)
include hP hE

theorem finish_modifiesOnly (b : Bench φ σ) : b.memory.ModifiesOnly P (b.finish E).memory := by
  cases ha : b.active? with
  | none =>
    rw [finish_of_idle E ha]
    exact .refl _
  | some a =>
    obtain ⟨e, hb⟩ := hosted_of_active? ha
    have hclean := b.memory.modifiesOnly_setIo a.io (hE.cleanup (b.memory.io a.io) e)
    rcases hc : E.cleanup (b.memory.io a.io) e with ⟨r, e', left⟩
    rw [hc] at hclean
    by_cases hr : r = .crashed
    · subst hr
      rw [finish_crashed E hb hc]
      exact hclean
    · rw [finish_ended E hb hc hr]
      exact hclean.modifyRegion _ fun r => .set (.set (.refl r) (hP _ (by decide)) 0) (hP _ (by decide)) 0

theorem perform_modifiesOnly (b : Bench φ σ) : b.memory.ModifiesOnly P (b.perform E).memory := by
  cases ha : b.active? with
  | none =>
    rw [perform_of_idle E ha]
    exact .refl _
  | some a =>
    obtain ⟨e, hb⟩ := hosted_of_active? ha
    have hblock := b.memory.modifiesOnly_setIo a.io (hE.perform (b.memory.io a.io) e)
    rcases hp : E.perform (b.memory.io a.io) e with ⟨r, e', left⟩
    rw [hp] at hblock
    by_cases hr : r = .crashed
    · subst hr
      rw [perform_crashed E hb hp]
      exact hblock
    · by_cases hmore : r = .ok .more
      · subst hmore
        rw [perform_more E hb hp]
        dsimp only
        rw [memoryBetween]
        split
        · exact hblock
        · exact hblock.modifyRegion _ fun r => .raise (.refl r) (hP _ (by decide))
      · rw [perform_over E hb hp hr hmore]
        have hended := finish_modifiesOnly hP hE
          ({ b with hosted := some ⟨e', some a⟩, memory := b.memory.setIo a.io left } : Bench φ σ)
        dsimp only
        split
        · exact hblock.trans hended
        · rw [forward_memory]
          exact hblock.trans hended

/-- **A step of the worker.** -/
theorem step_modifiesOnly (notified : Bool) (b : Bench φ σ) : b.memory.ModifiesOnly P (b.step E notified).memory := by
  rw [step]
  split
  · exact .refl _
  · exact .refl _
  · exact finish_modifiesOnly hP hE b
  · rw [awaitCycle]
    split
    · exact .refl _
    · split
      · exact (Memory.ModifiesOnly.refl _).modifyRegion _ fun r => .set (.refl r) (hP _ (by decide)) 0
      · exact .refl _
  · exact perform_modifiesOnly hP hE b

/-- A request for a performance. -/
theorem start_modifiesOnly (number : Int) (io : Handle) (b : Bench φ σ) :
    b.memory.ModifiesOnly P (b.start E number io).2.memory := by
  rw [start]
  split
  · exact .refl _
  · cases b.engine? number with
    | error e => exact .refl _
    | ok e =>
      have hstart := b.memory.modifiesOnly_setIo io (hE.start (b.memory.io io) e)
      simp only [onEngine_eq]
      rcases hs : E.start (b.memory.io io) e with ⟨r, e', left⟩
      rw [hs] at hstart
      cases r with
      | crashed => exact hstart
      | failed err => exact hstart
      | ok status =>
        dsimp only
        split
        · exact hstart
        · refine (hstart.modifyBank _ _).modifyRegion _ fun r => .set (.refl r) (hP _ ?_) 1
          cases E.mode e' <;> decide

omit hP hE in
theorem respond_memory (x : Attempt Value × Bench φ σ) : (respond E x).2.memory = x.2.memory := by
  obtain ⟨v, b⟩ := x
  cases v with
  | ok v => exact forward_memory E b
  | failed e => exact forward_memory E b
  | crashed => rfl

/-- **A request**, which the worker may answer, or leave or crash. -/
theorem handle_modifiesOnly (q : Request) (b : Bench φ σ) : b.memory.ModifiesOnly P (b.handle E q).2.memory := by
  have hfinish := finish_modifiesOnly hP hE b
  cases q with
  | build setup =>
    rw [handle, respond_memory, build]
    dsimp only
    split
    · exact hfinish
    · split <;> exact hfinish
  | start number io =>
    rw [handle, respond_memory]
    exact start_modifiesOnly hP hE number io b
  | reset number =>
    rw [handle, respond_memory, reset]
    split
    · exact hfinish
    · split
      · exact hfinish
      · split <;> exact hfinish
  | call number op args =>
    rw [handle, respond_memory, call]
    split <;> exact .refl _
  | shutdown =>
    rw [handle, leave]
    split <;> exact hfinish

end Bench

/-! ### The control side -/

/-- Whatever the surroundings are told, they modify nothing but words of `P`, as long as they are as `I` says, and they
stay so. -/
def Surroundings.ModifiesOnly {κ : Type} (S : Surroundings κ) (P : Field → Prop) (I : κ → Prop) : Prop :=
  ∀ c k m, I k → m.ModifiesOnly P (S.call c k m).2.2 ∧ I (S.call c k m).2.1

namespace Stage

variable {κ : Type} {S : Surroundings κ} {I : κ → Prop} {s : Stage κ}

/-- The memory, with what an operation writes into words of another side: an end reinitialises the region, and a stop
that is accepted lowers the word of a realtime performance. -/
def overrides (s : Stage κ) : Transport.Op → Memory
  | .change p => if p.isEnded then s.memory.modifyRegion s.transport.io.region Region.reset else s.memory
  | .requestStop =>
    match s.requestStop.1 with
    | .ok (some _) => s.memory.modifyRegion s.transport.io.region fun r => r.set .performing 0
    | _ => s.memory
  | _ => s.memory

/-- The surroundings are as `I` says, and nothing but words of `P` was modified since the memory was `m`. -/
structure Modified (m : Memory) (P : Field → Prop) (I : κ → Prop) (s : Stage κ) : Prop where
  memory : m.ModifiesOnly P s.memory
  around : I s.around

/-- Once the word of the performance is lowered, what a stop writes are words of the control side and shared ones. -/
theorem signalStop_modifiesOnly (current : PlayState) (r : Region) :
    (r.set .performing 0).ModifiesOnly Writer.control.MayWrite (signalStop current r) := by
  intro f hf
  have hpaused : f ≠ .paused := by rintro rfl; exact hf (by decide)
  have hstop : f ≠ .stop := by rintro rfl; exact hf (by decide)
  have hcycle : f ≠ .cycle := by rintro rfl; exact hf (by decide)
  by_cases hperforming : f = .performing
  · subst hperforming
    cases current <;> simp [signalStop, Region.raise, Region.get_set_other]
  · cases current <;>
      simp [signalStop, Region.raise, Region.lower, Region.get_set_other, hpaused, hstop, hcycle, hperforming]

/-- **A stop modifies nothing but words of the control side and shared ones**, besides the word of a realtime
performance, if it is accepted. -/
theorem requestStop_modified (hP : ∀ f, Writer.control.MayWrite f → P f) (hI : I s.around) :
    Modified (s.overrides .requestStop) P I s.requestStop.2 := by
  by_cases hstoppable : s.transport.current.isStoppable = true
  · by_cases hgone : s.transport.disconnected = true
    · have hrefused : s.requestStop = (.error .disconnected, s) := by simp [requestStop, hstoppable, hgone]
      rw [overrides, hrefused]
      exact ⟨.refl _, hI⟩
    · have haccepted : s.requestStop = (.ok (some s.transport.armStop.1),
          { s with transport := s.transport.armStop.2 }.onRegion (signalStop s.transport.armStop.2.current)) := by
        simp [requestStop, hstoppable, hgone]
      have hio : s.transport.armStop.2.io = s.transport.io := s.transport.dropStop_io
      rw [overrides, haccepted, ← hio]
      exact ⟨Memory.modifyRegion_modifiesOnly _ _ fun r => (signalStop_modifiesOnly _ r).mono hP, hI⟩
  · have hrefused : s.requestStop = (.ok none, s) := by simp [requestStop, hstoppable]
    rw [overrides, hrefused]
    exact ⟨.refl _, hI⟩

variable {m : Memory} (hS : S.ModifiesOnly P I)
include hS

theorem Modified.tell (h : Modified m P I s) (c : Call) : Modified m P I (s.tell S c) :=
  have hcall := hS c s.around s.memory h.around
  ⟨h.memory.trans hcall.1, hcall.2⟩

/-- A single act of the entry of a phase modifies nothing but what the surroundings do, unless it is a reset. -/
theorem Modified.perform (h : Modified m P I s) (p : PlayState) {a : Act} (ha : a ≠ .reset) :
    Modified m P I (s.perform S p a) := by
  cases a with
  | reset => exact absurd rfl ha
  | configure => exact h.tell hS (.configure (.ofRegion s.region s.transport.io))
  | announce => exact h.tell hS (.announce p)
  | tell => exact h.tell hS (.follow p)
  | enter | completeStop | completeStart => exact ⟨h.memory, h.around⟩

theorem Modified.run (h : Modified m P I s) (p : PlayState) {acts : List Act} (hacts : .reset ∉ acts) :
    Modified m P I (acts.foldl (Stage.perform S p) s) := by
  induction acts generalizing s with
  | nil => exact h
  | cons a acts ih =>
    rw [List.mem_cons, not_or] at hacts
    exact ih (h.perform hS p (Ne.symm hacts.1)) hacts.2

/-- **The entry of a phase that is no end modifies nothing but what the surroundings do.** -/
theorem Modified.change (h : Modified m P I s) {p : PlayState} (hp : p.isEnded = false) :
    Modified m P I (s.change S p) := by
  rw [change_eq_script]
  refine h.run hS p ?_
  cases p <;> first | decide | cases hp

/-- **An end reinitialises the region**, and modifies nothing else but what the surroundings do. -/
theorem change_modified_of_isEnded (hI : I s.around) {p : PlayState} (hp : p.isEnded = true) :
    Modified (s.memory.modifyRegion s.transport.io.region Region.reset) P I (s.change S p) := by
  rw [change_eq_script, script_of_isEnded hp]
  have hbegun : Modified (s.memory.modifyRegion s.transport.io.region Region.reset) P I
      ([.enter, .reset].foldl (Stage.perform S p) s) := ⟨.refl _, hI⟩
  have htold := hbegun.run hS p (show Act.reset ∉ [.announce, .tell] by decide)
  have hended : Modified (s.memory.modifyRegion s.transport.io.region Region.reset) P I
      ([.enter, .reset, .announce, .tell, .reset].foldl (Stage.perform S p) s) := by
    refine ⟨fun i f hf => ?_, htold.around⟩
    by_cases hi : s.transport.io.region = i
    · -- what the surroundings wrote into the region is lost
      subst hi
      exact (Memory.get_modifyRegion_reset _ _ f).trans (Memory.get_modifyRegion_reset _ _ f).symm
    · refine Eq.trans (congrArg (Region.get · f) ?_) (htold.memory i f hf)
      exact Memory.region_modifyRegion_other _ _ hi
  exact hended.run hS p (show Act.reset ∉ [.completeStop, .completeStart] by decide)

/-- **An operation of the transport modifies nothing but words of the control side and shared ones, and what the
surroundings do**, besides what it overrides. -/
theorem act_modifiesOnly (hP : ∀ f, Writer.control.MayWrite f → P f) (hI : I s.around) (op : Transport.Op) :
    Modified (s.overrides op) P I (s.act S op).2 := by
  have hsame : Modified s.memory P I s := ⟨.refl _, hI⟩
  cases op with
  | change p =>
    rw [overrides]
    split
    · next hp => exact change_modified_of_isEnded hS hI hp
    · next hp => exact hsame.change hS (by simpa using hp)
  | pause =>
    show Modified s.memory P I (s.pause S).2
    rw [pause]
    split
    · refine Modified.change hS ?_ rfl
      exact ⟨hsame.memory.modifyRegion _ fun r => .set (.refl r) (hP _ (by decide)) 1, hI⟩
    · exact hsame
  | resume =>
    show Modified s.memory P I (s.resume S).2
    rw [resume]
    split
    · refine Modified.change hS ?_ rfl
      exact ⟨hsame.memory.modifyRegion _ fun r => .lower (.refl r) (hP _ (by decide)), hI⟩
    · exact hsame
  | requestStop => exact requestStop_modified hP hI
  | replaceRegion => exact ⟨Memory.modifiesOnly_allocRegion s.memory, hI⟩
  | armStart | dropStart | disconnect | take c => exact ⟨.refl _, hI⟩

end Stage

/-! ### The render side -/

namespace Midi.Ring

/-- A message that is queued raises the number of unread messages, and nothing else. -/
theorem enqueue_modifiesOnly (ring : Ring) (r : Region) (m : Message) :
    r.ModifiesOnly (· = .midiPending) (ring.enqueue r m).2.2 := by
  rw [enqueue]
  dsimp only
  split
  · exact .refl r
  · exact r.modifiesOnly_set .midiPending _

/-- Taking messages out moves the cursor and lowers their number, and nothing else. -/
theorem drain_modifiesOnly (ring : Ring) (r : Region) :
    r.ModifiesOnly (· ∈ [.midiIndex, .midiPending]) (ring.drain r).2 := by
  rw [drain]
  dsimp only
  split
  · exact .refl r
  · exact .add (.set (.refl r) (by decide) _) (by decide) _

end Midi.Ring

namespace Render

variable {ω : Type} (hP : ∀ f, Writer.render.MayWrite f → P f)
include hP

/-- What a cycle does besides its callbacks is to move the cursor of the MIDI ring and to mark its boundary. -/
theorem modifiesOnly_law : Law (Io.ModifiesOnly P) (Io.ModifiesOnly P) fun _ _ => True where
  hooks_refl io := .refl io.region
  hooks_trans h h' := h.trans h'
  of_hooks := id
  trans h h' := h.trans h'
  deliver h := (h.set (hP _ (by decide)) _).add (hP _ (by decide)) _
  output io _ := .refl io.region
  input io _ := .refl io.region
  mark io := .raise (.refl io.region) (hP _ (by decide))
  memory_refl _ := trivial
  memory_trans _ _ := trivial
  setIo _ _ _ _ := trivial
  reset _ _ := trivial
  halt _ _ := trivial

namespace Device

variable {d : Device ω} (hq : d.Keep (Io.ModifiesOnly P))
include hq

/-- **A turn of the loop**, with all callbacks of its cycle. -/
theorem turn_modifiesOnly (w : ω) (m : Memory) : m.ModifiesOnly P (d.turn w m).2.2 := by
  rw [turn]
  split
  · exact .refl m
  · next l hl =>
    simp only [Memory.onIo_eq]
    exact m.modifiesOnly_setIo l.params.io
      (Loop.turn_keeps (modifiesOnly_law hP) (hq.loop l hl) w (m.io l.params.io)).1

theorem tick_modifiesOnly (w : ω) (m : Memory) : m.ModifiesOnly P (d.tick w m).2.2 := by
  rw [tick]
  split
  · split
    · next l _ =>
      have hd : Keep (Io.ModifiesOnly P) { d with asleep := if d.realtimeClock then period l.params else 0 } :=
        ⟨hq.hooks, hq.loop⟩
      exact turn_modifiesOnly hP hd w m
    · exact .refl m
  · exact .refl m

theorem advance_modifiesOnly (n : Nat) (w : ω) (m : Memory) : m.ModifiesOnly P (advance n d w m).2.2 := by
  induction n generalizing d w m with
  | zero => exact .refl m
  | succ n ih =>
    rw [advance]
    split
    · exact .refl m
    · exact (turn_modifiesOnly hP hq w m).trans (ih (Device.turn_keeps (modifiesOnly_law hP) hq w m).2 _ _)

/-- The turns that a loop has until its end. -/
theorem join_modifiesOnly (w : ω) (m : Memory) : m.ModifiesOnly P (d.join w m).2.2.2 :=
  advance_modifiesOnly hP hq patience w m

theorem follow_modifiesOnly (p : PlayState) (w : ω) (m : Memory) : m.ModifiesOnly P (d.follow p w m).2.2.2 := by
  have hjoin := join_modifiesOnly hP hq w m
  unfold follow
  split
  · split
    · next e r hr =>
      rw [hr] at hjoin
      exact hjoin
    · next d' w' m' hr =>
      rw [hr] at hjoin
      exact hjoin
  · exact hjoin
  · exact hjoin
  · exact hjoin
  · exact .refl m

omit hP hq in
/-- The memory, with what a device writes into a word of another side when it is dropped: the performance that it was
configured for is told to stop. -/
def halted (d : Device ω) (m : Memory) : Memory :=
  match d.params with
  | none => m
  | some p => m.modifyRegion p.io.region fun r => r.set .stop 1

/-- **A device that is dropped modifies nothing but words of the render side and shared ones**, besides the word for a
stop, which it raises. -/
theorem drop_modifiesOnly (w : ω) (m : Memory) : (d.halted m).ModifiesOnly P (d.drop w m).2.2 := by
  rw [drop, halted]
  cases d.params with
  | none => exact join_modifiesOnly hP hq w m
  | some p =>
    have hnotified := m.modifyRegion_modifiesOnly p.io.region (P := P) (f := fun r => r.set .stop 1)
      (g := fun r => (r.set .stop 1).notify .paused) fun r => .notify (.refl _) .paused
    exact hnotified.trans (join_modifiesOnly hP hq w _)

end Device
end Render

/-- **The render device, as the coordinator of the transport, modifies nothing but words of the render side and shared
ones.** -/
theorem Outlets.surroundings_modifiesOnly {ω : Type} (hP : ∀ f, Writer.render.MayWrite f → P f) :
    (surroundings : Surroundings (Outlets ω)).ModifiesOnly P (Outlets.Keep (Io.ModifiesOnly P)) := by
  intro c o m ho
  cases c with
  | announce p => exact ⟨.refl m, ho⟩
  | configure ps => exact ⟨.refl m, configure_keep ps ho⟩
  | follow p =>
    refine ⟨?_, (follow_keeps (modifiesOnly_law hP) p ho m).2⟩
    show m.ModifiesOnly P (o.follow p m).2.2
    rw [follow]
    split
    · exact .refl m
    · next d hd => exact Device.follow_modifiesOnly hP (ho d hd) p o.world m

/-! ### All sides -/

theorem Surroundings.ModifiesOnly.mono {κ : Type} {S : Surroundings κ} {I : κ → Prop} (hle : ∀ f, P f → Q f)
    (h : S.ModifiesOnly P I) : S.ModifiesOnly Q I :=
  fun c k m hk => ⟨(h c k m hk).1.mono hle, (h c k m hk).2⟩

end

namespace Session

variable {ω : Type}

/-- The words that an operation may write: those of the side that does it and the shared ones.  The entry of a phase may
wait for the last turns of a loop. -/
def Act.MayWrite : Act → Field → Prop
  | .request _ | .step _ | .finish => Writer.engine.MayWrite
  | .transport _ => fun f => Writer.control.MayWrite f ∨ Writer.render.MayWrite f
  | .midi _ (.enqueue _) => Writer.control.MayWrite
  | .tick | .dropDevice | .midi _ .drain => Writer.render.MayWrite
  | .midi _ .reset | .midi _ .replace => fun _ => False

/-- The words of other sides that an operation overrides. -/
def Act.Overrides : Act → Field → Prop
  | .transport (.change p) => fun _ => p.isEnded = true
  | .transport .requestStop => (· = .performing)
  | .dropDevice => (· = .stop)
  | .midi _ .reset | .midi _ .replace => fun _ => True
  | _ => fun _ => False

/-- The memory, with what an operation writes into words of other sides: an end and a region that begins anew
reinitialise the region, a stop lowers the word of a realtime performance, and a device that is dropped raises the word
for a stop. -/
def overrides (s : Session Unit Sine ω) : Act → Memory
  | .transport op => s.stage.overrides op
  | .midi h .reset | .midi h .replace => s.memory.modifyRegion h.region Region.reset
  | .dropDevice =>
    match s.outlets.device with
    | none => s.memory
    | some d => d.halted s.memory
  | _ => s.memory

theorem overrides_modifiesOnly (s : Session Unit Sine ω) (a : Act) :
    s.memory.ModifiesOnly a.Overrides (s.overrides a) := by
  cases a with
  | transport op =>
    show s.memory.ModifiesOnly _ (s.stage.overrides op)
    cases op with
    | change p =>
      rw [Stage.overrides]
      split
      · next hp => exact (Memory.ModifiesOnly.refl _).modifyRegion _ fun r f hf => absurd hp hf
      · exact .refl _
    | requestStop =>
      rw [Stage.overrides]
      split
      · exact (Memory.ModifiesOnly.refl _).modifyRegion _ fun r => r.modifiesOnly_set .performing 0
      · exact .refl _
    | _ => exact .refl _
  | midi h op =>
    cases op with
    | reset | replace => exact fun i f hf => absurd trivial hf
    | enqueue m | drain => exact .refl _
  | dropDevice =>
    rw [overrides]
    split
    · exact .refl _
    · next d _ =>
      rw [Device.halted]
      split
      · exact .refl _
      · exact (Memory.ModifiesOnly.refl _).modifyRegion _ fun r => r.modifiesOnly_set .stop 1
  | request q | step notified | finish | tick => exact .refl _

/-- What is done to a MIDI ring: a message that is queued is counted, one that is taken out moves the cursor as well,
and a region that begins anew is reinitialised. -/
theorem midi_modifiesOnly (s : Session Unit Sine ω) (h : Handle) (op : Midi.Op) :
    (s.overrides (.midi h op)).ModifiesOnly (Act.midi h op).MayWrite (s.act Sine.engine (.midi h op)).memory := by
  cases op with
  | enqueue m =>
    refine s.memory.modifiesOnly_setIo h (Region.ModifiesOnly.mono ?_ (Midi.Ring.enqueue_modifiesOnly _ _ m))
    rintro _ rfl
    exact .inr rfl
  | drain =>
    refine s.memory.modifiesOnly_setIo h (Region.ModifiesOnly.mono ?_ (Midi.Ring.drain_modifiesOnly _ _))
    show ∀ f, f ∈ [.midiIndex, .midiPending] → Writer.render.MayWrite f
    decide
  | reset | replace =>
    refine s.memory.modifyRegion_modifiesOnly h.region fun r f _ => ?_
    rw [Region.get_reset]
    cases f <;> rfl

variable {s : Session Unit Sine ω} (hq : s.outlets.Keep (Io.ModifiesOnly Writer.render.MayWrite))
include hq

/-- The clock of the device. -/
theorem tick_modifiesOnly : s.memory.ModifiesOnly Writer.render.MayWrite (s.act Sine.engine .tick).memory := by
  show s.memory.ModifiesOnly _ (s.outlets.tick s.memory).2
  rw [Outlets.tick]
  split
  · exact .refl _
  · next d hd => exact Device.tick_modifiesOnly (fun _ => id) (hq d hd) _ _

/-- A device that is dropped, if there is one. -/
theorem dropDevice_modifiesOnly :
    (s.overrides .dropDevice).ModifiesOnly Writer.render.MayWrite (s.act Sine.engine .dropDevice).memory := by
  show (s.overrides .dropDevice).ModifiesOnly _ (s.outlets.drop s.memory).2
  cases hd : s.outlets.device with
  | none =>
    have hspared : s.overrides .dropDevice = s.memory := by rw [overrides, hd]
    have hdrop : (s.outlets.drop s.memory).2 = s.memory := by rw [Outlets.drop, hd]
    rw [hspared, hdrop]
    exact .refl _
  | some d =>
    have hhalted : s.overrides .dropDevice = d.halted s.memory := by rw [overrides, hd]
    have hdrop : (s.outlets.drop s.memory).2 = (d.drop s.outlets.world s.memory).2.2 := by rw [Outlets.drop, hd]
    rw [hhalted, hdrop]
    exact Device.drop_modifiesOnly (fun _ => id) (hq d hd) _ _

/-- **No operation modifies words of another side**, besides what it overrides, and none changes what callbacks do. -/
theorem act_modifiesOnly (a : Act) :
    (s.overrides a).ModifiesOnly a.MayWrite (s.act Sine.engine a).memory ∧
      (s.act Sine.engine a).outlets.Keep (Io.ModifiesOnly Writer.render.MayWrite) := by
  have hengine : Sine.engine.ModifiesOnly Writer.engine.MayWrite := Sine.engine_modifiesOnly.mono fun _ => .inl
  cases a with
  | request q => exact ⟨Bench.handle_modifiesOnly (fun _ => id) hengine q s.link.bench, hq⟩
  | step notified => exact ⟨Bench.step_modifiesOnly (fun _ => id) hengine notified s.link.bench, hq⟩
  | finish => exact ⟨Bench.finish_modifiesOnly (fun _ => id) hengine s.link.bench, hq⟩
  | transport op =>
    have hsurroundings := (Outlets.surroundings_modifiesOnly (ω := ω) (P := Writer.render.MayWrite)
      fun _ => id).mono (Q := fun f => Writer.control.MayWrite f ∨ Writer.render.MayWrite f) fun _ => .inr
    obtain ⟨hmemory, hkeep⟩ := Stage.act_modifiesOnly (s := s.stage) hsurroundings (fun _ => .inl) hq op
    exact ⟨hmemory, hkeep⟩
  | midi h op => exact ⟨s.midi_modifiesOnly h op, hq⟩
  | tick => exact ⟨tick_modifiesOnly hq, (Outlets.tick_keeps (modifiesOnly_law fun _ => id) hq s.memory).2⟩
  | dropDevice => exact ⟨dropDevice_modifiesOnly hq, (Outlets.drop_keeps (modifiesOnly_law fun _ => id) hq s.memory).2⟩

/-- **A word keeps its value through any run of operations** that neither may write it nor override it. -/
theorem run_keeps_word {f : Field} {acts : List Act} (hacts : ∀ a ∈ acts, ¬a.MayWrite f ∧ ¬a.Overrides f) (i : Nat) :
    ((acts.foldl (Session.act Sine.engine) s).memory.region i).get f = (s.memory.region i).get f := by
  induction acts generalizing s with
  | nil => rfl
  | cons a acts ih =>
    rw [List.forall_mem_cons] at hacts
    obtain ⟨hmodified, hkeep⟩ := act_modifiesOnly hq a
    refine (ih hkeep hacts.2).trans ((hmodified i f hacts.1.1).trans ?_)
    exact s.overrides_modifiesOnly a i f hacts.1.2

end Session

/-- **Nobody writes the words of another side.**  Whatever the words hold,

* the sine engine writes words of the engine when it starts, and none in a block and a cleanup; the worker, with any
  engine, writes words of the engine and shared ones, and what the engine does;
* an operation of the transport, with any listeners and any coordinator, writes words of the control side and shared
  ones, and what these do; and a message that is queued is counted;
* a render cycle, a tick of the device and a phase that it is told of, with any callbacks, write words of the render
  side and shared ones, and what these do; and messages that are taken out are counted and move the cursor.

There are three cases besides: an end reinitialises its region, a stop lowers the word of a realtime performance, and a
device that is dropped raises the word for a stop.  The same holds of all sides together, where a region that is given
up begins anew as well. -/
theorem roles_respected :
    (∀ (io : Io) (s : Sine), io.ModifiesOnly (·.writer = .engine) (s.start io).2.2 ∧
      (s.perform io).2.2.region = io.region ∧ (s.cleanup io).2.2 = io) ∧
    (∀ {φ σ : Type} (E : Engine φ σ) (P : Field → Prop), (∀ f, Writer.engine.MayWrite f → P f) → E.ModifiesOnly P →
      ∀ b : Bench φ σ, (∀ number io, b.memory.ModifiesOnly P (b.start E number io).2.memory) ∧
        (∀ notified, b.memory.ModifiesOnly P (b.step E notified).memory) ∧
        b.memory.ModifiesOnly P (b.finish E).memory ∧ ∀ q, b.memory.ModifiesOnly P (b.handle E q).2.memory) ∧
    (∀ {κ : Type} (S : Surroundings κ) (P : Field → Prop) (I : κ → Prop), (∀ f, Writer.control.MayWrite f → P f) →
      S.ModifiesOnly P I → ∀ s : Stage κ, I s.around → ∀ op, (s.overrides op).ModifiesOnly P (s.act S op).2.memory) ∧
    (∀ (ring : Midi.Ring) (r : Region), (∀ m, r.ModifiesOnly (· = .midiPending) (ring.enqueue r m).2.2) ∧
      r.ModifiesOnly (· ∈ [.midiIndex, .midiPending]) (ring.drain r).2) ∧
    (∀ {ω : Type} (P : Field → Prop), (∀ f, Writer.render.MayWrite f → P f) →
      (∀ l : Loop ω, l.hooks.Keep (Io.ModifiesOnly P) → ∀ w (io : Io), io.ModifiesOnly P (l.cycle w io).2.2.2) ∧
      ∀ d : Device ω, d.Keep (Io.ModifiesOnly P) → ∀ w (m : Memory), m.ModifiesOnly P (d.tick w m).2.2 ∧
        (∀ p, m.ModifiesOnly P (d.follow p w m).2.2.2) ∧ (d.halted m).ModifiesOnly P (d.drop w m).2.2) ∧
    ∀ {ω : Type} (s : Session Unit Sine ω), s.outlets.Keep (Io.ModifiesOnly Writer.render.MayWrite) →
      ∀ a, (s.overrides a).ModifiesOnly a.MayWrite (s.act Sine.engine a).memory := by
  refine ⟨fun io s => ⟨s.start_modifiesOnly io, s.perform_region io, s.cleanup_io io⟩, ?_, ?_, ?_, ?_, ?_⟩
  · intro φ σ E P hP hE b
    exact ⟨fun number io => b.start_modifiesOnly hP hE number io, fun notified => b.step_modifiesOnly hP hE notified,
      b.finish_modifiesOnly hP hE, fun q => b.handle_modifiesOnly hP hE q⟩
  · intro κ S P I hP hS s hI op
    exact (Stage.act_modifiesOnly hS hP hI op).memory
  · intro ring r
    exact ⟨ring.enqueue_modifiesOnly r, ring.drain_modifiesOnly r⟩
  · intro ω P hP
    refine ⟨fun l hq w io => (Loop.cycle_keeps (modifiesOnly_law hP) hq w io).1, fun d hq w m => ?_⟩
    exact ⟨d.tick_modifiesOnly hP hq w m, fun p => d.follow_modifiesOnly hP hq p w m, d.drop_modifiesOnly hP hq w m⟩
  · intro ω s hq a
    exact (Session.act_modifiesOnly hq a).1

/-- The sine engine begins a performance, the control side stops it, and the device that was configured for it is
dropped: each of them writes, and what it writes are its words, the two exceptions apart. -/
theorem roles_respected_halted :
    let b : Bench Unit Sine := { factory := (), hosted := some ⟨Sine.fresh ⟨{}, []⟩, none⟩
                                 memory := (Memory.allocIo {} 64 4).2 }
    let started := (b.start Sine.engine 0 ⟨0, 0⟩).2.memory
    let d : Device Unit := { Device.create true {} with params := some (.ofRegion (started.region 0) ⟨0, 0⟩) }
    let s : Stage (Outlets Unit) := { transport := { current := .realtimeStarted, io := ⟨0, 0⟩ }, memory := started
                                      around := { bus := ⟨{}, ()⟩, device := some d } }
    let stopped := (s.act Outlets.surroundings .requestStop).2.memory
    let dropped := (d.drop () started).2.2
    b.memory.ModifiesOnly Writer.engine.MayWrite started ∧ (started.region 0).get .performing = 1 ∧
      (s.overrides .requestStop).ModifiesOnly (fun f => Writer.control.MayWrite f ∨ Writer.render.MayWrite f) stopped ∧
      (stopped.region 0).get .performing = 0 ∧ (stopped.region 0).get .cycle = 1 ∧
      (d.halted started).ModifiesOnly Writer.render.MayWrite dropped ∧ (dropped.region 0).get .stop = 1 := by
  intro b started d s stopped dropped
  obtain ⟨-, hengine, hcontrol, -, hrender, -⟩ := roles_respected
  have hcreated : (Device.create true ({} : Hooks Unit)).Keep (Io.ModifiesOnly Writer.render.MayWrite) :=
    Device.create_keep (Hooks.keep_none _) true
  have hkeep : d.Keep (Io.ModifiesOnly Writer.render.MayWrite) := ⟨hcreated.hooks, hcreated.loop⟩
  have hbegun := (hengine Sine.engine Writer.engine.MayWrite (fun _ => id)
    (Sine.engine_modifiesOnly.mono fun _ => .inl) b).1 0 ⟨0, 0⟩
  have hstopped := hcontrol Outlets.surroundings (fun f => Writer.control.MayWrite f ∨ Writer.render.MayWrite f)
    (Outlets.Keep (Io.ModifiesOnly Writer.render.MayWrite)) (fun _ => Or.inl)
    ((Outlets.surroundings_modifiesOnly (P := Writer.render.MayWrite) fun _ => id).mono
      (Q := fun f => Writer.control.MayWrite f ∨ Writer.render.MayWrite f) fun _ => Or.inr) s
    (fun d' hd' => Option.some.inj hd' ▸ hkeep) .requestStop
  have hdropped := ((hrender Writer.render.MayWrite fun _ => id).2 d hkeep () started).2.2
  exact ⟨hbegun, by decide, hstopped, by decide, by decide, hdropped, by decide⟩

end SynthControl
