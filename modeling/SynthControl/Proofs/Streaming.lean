import SynthControl.Proofs.Levels
import SynthControl.Proofs.Overwriting
import SynthControl.Proofs.Worker
import SynthControl.Render.Loop
import SynthControl.Sine.Call

/-!
# A performance that pours

The sine engine performs in real time: the worker has it make a block whenever the output ring holds less than
the mark, and the block goes into the ring.  What a single step of the worker does is said here, from the
memory up.

* `Memory.Has`, `io_setIo` — what is written to an allocated place can be read there;
* `Io.Gains`, `Io.Suits` — samples were written into the output ring, and the buffers have their sizes still;
  region and ring are as a configuration says;
* `Sine.start_realtime`, `Sine.perform_more` — **which blocks the engine accepts, and where it writes them**;
* `Bench.produces`, `Bench.Pours`, `Pours.step` — what the engine makes in a step of the worker; **the step
  writes that into the output ring, and nothing else that counts**;
* `Bench.Ready`, `Ready.step` — a performance that goes on, and **gets a block whenever it is below the mark**;
* `Bench.Begun`, `Begun.pours`, `exists_ready` — how a performance begins, and that there is one.
-/

namespace SynthControl

open Render

/-! ### One place of the memory -/

namespace Memory

variable {m : Memory} {h : Handle}

/-- What a handle names was allocated. -/
structure Has (m : Memory) (h : Handle) : Prop where
  region_lt : h.region < m.regions.size
  bank_lt : h.bank < m.banks.size

theorem Has.modifyRegion (hm : m.Has h) (f : Region → Region) : (m.modifyRegion h.region f).Has h := by
  refine ⟨?_, hm.bank_lt⟩
  rw [Memory.modifyRegion, Array.size_modify]
  exact hm.region_lt

theorem Has.modifyBank (hm : m.Has h) (f : Bank → Bank) : (m.modifyBank h.bank f).Has h := by
  refine ⟨hm.region_lt, ?_⟩
  rw [Memory.modifyBank, Array.size_modify]
  exact hm.bank_lt

theorem Has.setIo (hm : m.Has h) (io : Io) : (m.setIo h io).Has h :=
  (hm.modifyRegion _).modifyBank _

theorem io_modifyRegion (hm : m.Has h) (f : Region → Region) :
    (m.modifyRegion h.region f).io h = { m.io h with region := f (m.io h).region } := by
  rw [io, region_modifyRegion_same m f hm.region_lt]
  rfl

theorem io_modifyBank (hm : m.Has h) (f : Bank → Bank) :
    (m.modifyBank h.bank f).io h = { m.io h with bank := f (m.io h).bank } := by
  have hbank : (m.modifyBank h.bank f).bank h.bank = f (m.bank h.bank) := by
    simp [Memory.modifyBank, bank, Array.getD, hm.bank_lt, Array.getElem_modify]
  rw [io, hbank]
  rfl

/-- What is written can be read. -/
theorem io_setIo (hm : m.Has h) (left : Io) : (m.setIo h left).io h = left := by
  rw [setIo, io_modifyBank (hm.modifyRegion _), io_modifyRegion hm]

end Memory

/-! ### Writing into the output ring -/

/-- The words that say how large the buffers are. -/
def bufferWords : List Field := [.hardwareFrames, .softwareFrames, .outputs]

namespace Io

/-- Samples were written into the output ring, and the buffers have their sizes still. -/
structure Gains (io : Io) (data : List Float) (left : Io) : Prop where
  output_eq : left.bank.audio.output = io.bank.audio.output.write data
  word_eq : ∀ f ∈ bufferWords, left.region.get f = io.region.get f

theorem Gains.refl (io : Io) : io.Gains [] io := ⟨rfl, fun _ _ => rfl⟩

/-- Writing other words gains nothing. -/
theorem Gains.set {io left : Io} {data : List Float} (hg : io.Gains data left) {f : Field} (v : Int)
    (hf : f ∉ bufferWords) : io.Gains data { left with region := left.region.set f v } := by
  refine ⟨hg.output_eq, fun g hgw => ?_⟩
  have hne : g ≠ f := fun h => hf (h ▸ hgw)
  show (left.region.set f v).get g = _
  rw [Region.get_set_other _ _ hne, hg.word_eq g hgw]

/-- Region and output ring are as a configuration says. -/
structure Suits (io : Io) (c : Config) : Prop where
  sound : io.bank.audio.output.IsSound
  capacity_eq : io.bank.audio.output.capacity = c.buffers.ringSamples
  hardware_eq : io.region.get .hardwareFrames = c.engine.hardwareFrames
  software_eq : io.region.get .softwareFrames = c.engine.softwareFrames
  outputs_eq : io.region.get .outputs = c.engine.outputs

theorem Suits.gains {io left : Io} {c : Config} {data : List Float} (h : io.Suits c)
    (hg : io.Gains data left) : left.Suits c := by
  obtain ⟨hsound, hcapacity, hhardware, hsoftware, houtputs⟩ := h
  have hout := hg.output_eq
  refine ⟨?_, ?_, ?_, ?_, ?_⟩
  · rw [hout]
    exact hsound.write data
  · rw [hout, Ring.capacity_write]
    exact hcapacity
  · rw [hg.word_eq _ (by decide), hhardware]
  · rw [hg.word_eq _ (by decide), hsoftware]
  · rw [hg.word_eq _ (by decide), houtputs]

/-- The worker waits if the mark is reached. -/
theorem Suits.isFull_iff {io : Io} {c : Config} (h : io.Suits c) (hc : c.fault? = none) :
    Bench.isFull io = true ↔ c.markSamples ≤ io.bank.audio.output.unread := by
  obtain ⟨-, -, -, -, -, houtputs, -⟩ := Config.fault?_eq_none_iff.1 hc
  have hmax : max c.engine.outputs 1 = c.engine.outputs := by omega
  simp only [Bench.isFull, h.hardware_eq, h.software_eq, h.outputs_eq, h.capacity_eq, hmax,
    decide_eq_true_eq, Config.markSamples]

end Io

/-! ### What the engine does -/

namespace Sine

/-- The engine makes blocks of a size in real time. -/
structure Streams (s : Sine) (samples : Nat) : Prop where
  mode_eq : s.mode = .realtime
  size_eq : s.block.size = samples

theorem cleanup_keeps (io : Io) (s : Sine) :
    ∃ r e, s.cleanup io = (r, e, io) ∧ r ≠ .crashed := by
  unfold cleanup
  dsimp only
  split
  · exact ⟨_, _, rfl, nofun⟩
  · exact ⟨_, _, rfl, nofun⟩

theorem perform_over (io : Io) {s : Sine} (h : s.isOver = true) :
    s.perform io = (.ok .finished, s, io) := by
  rw [perform, if_pos h]

/-- **A block of the engine is written into the output ring, and nothing else that counts.** -/
theorem perform_more (io : Io) {s : Sine} {samples : Nat} (h : s.isOver = false)
    (hs : s.Streams samples) :
    ∃ e left, s.perform io = (.ok .more, e, left) ∧ e.Streams samples ∧ e.duration = s.duration ∧
      left.region = io.region ∧
      left.bank.audio.output = io.bank.audio.output.write e.block.toList := by
  obtain ⟨hmode, hsize⟩ := hs
  rw [perform, if_neg (by rw [h]; decide)]
  by_cases hinput : s.input.size ≠ 0
  · simp only [hmode, true_and, if_pos hinput, takeInput]
    refine ⟨_, _, rfl, ⟨rfl, ?_⟩, rfl, rfl, rfl⟩
    exact (Oscillator.size_frames _ _ _ _).trans hsize
  · simp only [hmode, true_and, if_neg hinput]
    refine ⟨_, _, rfl, ⟨rfl, ?_⟩, rfl, rfl, rfl⟩
    exact (Oscillator.size_frames _ _ _ _).trans hsize

theorem publish_get (s : Sine) (r : Region) :
    (s.publish r).get .hardwareFrames = s.settings.hardwareFrames ∧
      (s.publish r).get .softwareFrames = s.settings.softwareFrames ∧
      (s.publish r).get .outputs = s.settings.outputs := by
  refine ⟨?_, ?_, ?_⟩ <;> simp [publish, Region.get_set_other]

/-- What others say in a region is not published. -/
theorem publish_get_other (s : Sine) (r : Region) {f : Field} (hf : f ∈ [Field.stop, .paused]) :
    (s.publish r).get f = r.get f := by
  simp only [List.mem_cons, List.not_mem_nil, or_false] at hf
  rcases hf with rfl | rfl <;> simp [publish, Region.get_set_other]

/-- **A start in real time is accepted if a block fits the output ring**, and publishes the parameters. -/
theorem start_realtime (io : Io) {s : Sine} (hout : s.output = none)
    (hfits : s.blockSamples ≤ io.bank.audio.output.capacity) :
    ∃ e, s.start io = (.ok 0, e, { io with region := s.publish io.region }) ∧
      e.Streams s.blockSamples ∧ e.duration = s.duration := by
  rw [start]
  dsimp only
  rw [if_neg (Nat.not_lt.2 hfits)]
  refine ⟨_, rfl, ⟨?_, ?_⟩, rfl⟩
  · simp [print, hout]
  · simp [print]

/-- It is refused if a block does not fit. -/
theorem start_tooLarge (io : Io) {s : Sine} (hlarge : io.bank.audio.output.capacity < s.blockSamples) :
    ∃ e left, s.start io = (.ok (-1), e, left) := by
  rw [start]
  dsimp only
  rw [if_pos hlarge]
  exact ⟨_, _, rfl⟩

/-- The samples in a block of an engine with the settings of a configuration. -/
theorem blockSamples_eq {s : Sine} {c : Config} (hs : s.settings = c.engine) (hc : c.fault? = none)
    (hword : c.engine.blockFrames * c.engine.outputs < 2 ^ 31) : s.blockSamples = c.blockSamples := by
  obtain ⟨-, -, -, -, hframes, houtputs, -⟩ := Config.fault?_eq_none_iff.1 hc
  have hpos : 0 < c.engine.blockFrames * c.engine.outputs := Int.mul_pos hframes houtputs
  rw [← hs] at hpos hword
  rw [blockSamples_eq_toNat (Int.le_of_lt hpos) hword, hs, Config.blockSamples]

end Sine

/-! ### What the worker does -/

namespace Bench

variable {c : Config} {h : Handle} {b : Bench Unit Sine}

/-- The output ring that a handle names. -/
def output (b : Bench Unit Sine) (h : Handle) : Ring Float := (b.memory.io h).bank.audio.output

/-- The block that the hosted engine makes next, if its score is not over. -/
def nextBlock (b : Bench Unit Sine) : List Float :=
  match b.hosted with
  | some ⟨e, some a⟩ =>
    match e.perform (b.memory.io a.io) with
    | (.ok .more, e, _) => e.block.toList
    | _ => []
  | _ => []

/-- What the engine makes in the next step of the worker. -/
def produces (b : Bench Unit Sine) : List Float := if b.next = .perform then b.nextBlock else []

/-- A performance in real time runs on a handle, or none any more. -/
structure Pours (c : Config) (h : Handle) (b : Bench Unit Sine) : Prop where
  has : b.memory.Has h
  suits : (b.memory.io h).Suits c
  hosted : ∀ e a, b.hosted = some ⟨e, some a⟩ → a = ⟨h, .realtime⟩ ∧ e.Streams c.blockSamples

/-- What is on a handle is replaced by something that suits it. -/
theorem Pours.setIo (hp : b.Pours c h) {left : Io} (hs : left.Suits c) :
    Pours c h { b with memory := b.memory.setIo h left } := by
  refine ⟨hp.has.setIo left, ?_, hp.hosted⟩
  rw [show (b.memory.setIo h left).io h = left from Memory.io_setIo hp.has left]
  exact hs

theorem Pours.forward (hp : b.Pours c h) : (b.forward Sine.engine).Pours c h := by
  obtain ⟨hhas, hsuits, hhosted⟩ := hp
  refine ⟨?_, ?_, ?_⟩
  · rwa [forward_memory]
  · rwa [forward_memory]
  · intro e a he
    cases hb : b.hosted with
    | none =>
      simp [Bench.forward, hb] at he
    | some k =>
      obtain ⟨e', a'⟩ := k
      simp only [Bench.forward, hb, Option.some.injEq, Hosted.mk.injEq] at he
      obtain ⟨rfl, rfl⟩ := he
      obtain ⟨ha, hmode, hsize⟩ := hhosted e' a hb
      exact ⟨ha, hmode, hsize⟩

/-- The end of a performance leaves the output ring as it is. -/
theorem Pours.finish (hp : b.Pours c h) :
    (b.finish Sine.engine).Pours c h ∧
      (b.memory.io h).Gains [] ((b.finish Sine.engine).memory.io h) := by
  cases ha : b.active? with
  | none =>
    rw [finish_of_idle _ ha]
    exact ⟨hp, .refl _⟩
  | some a =>
    obtain ⟨e, hb⟩ := hosted_of_active? ha
    obtain ⟨rfl, -⟩ := hp.hosted e a hb
    obtain ⟨r, e', hc, hr⟩ := Sine.cleanup_keeps (b.memory.io h) e
    rw [finish_ended Sine.engine hb hc hr]
    have hgains : (b.memory.io h).Gains []
        ((memoryAfter b.memory h (b.memory.io h)).io h) := by
      rw [memoryAfter, Memory.io_modifyRegion (hp.has.setIo _), Memory.io_setIo hp.has]
      exact ((Io.Gains.refl _).set 0 (by decide)).set 0 (by decide)
    refine ⟨⟨(hp.has.setIo _).modifyRegion _, hp.suits.gains hgains, ?_⟩, hgains⟩
    intro e a hnone
    cases hnone

/-- A block is written into the output ring. -/
theorem Pours.perform (hp : b.Pours c h) :
    (b.perform Sine.engine).Pours c h ∧
      (b.memory.io h).Gains b.nextBlock ((b.perform Sine.engine).memory.io h) := by
  cases ha : b.active? with
  | none =>
    have hnone : b.nextBlock = [] := by
      rw [nextBlock]
      split
      · next hb => simp [active?, hb] at ha
      · rfl
    rw [perform_of_idle _ ha, hnone]
    exact ⟨hp, .refl _⟩
  | some a =>
    obtain ⟨e, hb⟩ := hosted_of_active? ha
    obtain ⟨rfl, hstreams⟩ := hp.hosted e a hb
    cases hover : e.isOver with
    | true =>
      have hdone := Sine.perform_over (b.memory.io h) hover
      have hnone : b.nextBlock = [] := by simp only [nextBlock, hb, hdone]
      rw [hnone, perform_over Sine.engine hb hdone (by simp) (by simp)]
      have hset := hp.setIo hp.suits
      have hhosted : b.hosted = some ⟨e, some ⟨h, .realtime⟩⟩ := hb
      rw [← hhosted]
      obtain ⟨hended, hgains⟩ := hset.finish
      dsimp only
      rw [show ({ b with memory := b.memory.setIo h (b.memory.io h) } : Bench Unit Sine).memory.io h =
        b.memory.io h from Memory.io_setIo hp.has _] at hgains
      split
      · exact ⟨hended, hgains⟩
      · rw [forward_memory]
        exact ⟨hended.forward, hgains⟩
    | false =>
      obtain ⟨e', left, hmore, hs, -, hregion, hout⟩ := Sine.perform_more (b.memory.io h) hover hstreams
      have hblock : b.nextBlock = e'.block.toList := by simp only [nextBlock, hb, hmore]
      have hgains : (b.memory.io h).Gains e'.block.toList left :=
        ⟨hout, fun f _ => by rw [hregion]⟩
      rw [hblock, perform_more Sine.engine hb hmore]
      have hset := hp.setIo (hp.suits.gains hgains)
      refine ⟨⟨hset.has, hset.suits, ?_⟩, ?_⟩
      · intro e₁ a₁ he
        cases he
        exact ⟨rfl, hs.mode_eq, hs.size_eq⟩
      · rw [show ({ b with memory := memoryBetween b.memory ⟨h, .realtime⟩ left } : Bench Unit Sine).memory.io h =
          left from Memory.io_setIo hp.has left]
        exact hgains

theorem Pours.awaitCycle (hp : b.Pours c h) (notified : Bool) :
    (b.awaitCycle notified).Pours c h ∧
      (b.memory.io h).Gains [] ((b.awaitCycle notified).memory.io h) := by
  rw [Bench.awaitCycle]
  split
  · exact ⟨hp, .refl _⟩
  · next a ha =>
    split
    · obtain ⟨e, hb⟩ := hosted_of_active? ha
      obtain ⟨rfl, -⟩ := hp.hosted e a hb
      have hgains : (b.memory.io h).Gains []
          ((b.memory.modifyRegion h.region fun r => r.set .cycle 0).io h) := by
        rw [Memory.io_modifyRegion hp.has]
        exact (Io.Gains.refl _).set 0 (by decide)
      exact ⟨⟨hp.has.modifyRegion _, hp.suits.gains hgains, hp.hosted⟩, hgains⟩
    · exact ⟨hp, .refl _⟩

/-- **A step of the worker writes what the engine makes in it.** -/
theorem Pours.step (hp : b.Pours c h) (notified : Bool) :
    (b.step Sine.engine notified).Pours c h ∧
      (b.memory.io h).Gains b.produces ((b.step Sine.engine notified).memory.io h) := by
  rw [Bench.step, produces]
  cases b.next with
  | idle | awaitResume => exact ⟨hp, .refl _⟩
  | finish => exact hp.finish
  | awaitCycle => exact hp.awaitCycle notified
  | perform => exact hp.perform

/-- The worker asks for a block if nobody stopped or paused the performance, and the ring is below the mark. -/
theorem next_eq_perform_iff (ha : b.active? = some ⟨h, .realtime⟩) :
    b.next = .perform ↔
      (b.memory.io h).region.get .stop ≠ 1 ∧ (b.memory.io h).region.get .performing ≠ 0 ∧
        (b.memory.io h).region.get .paused ≠ 1 ∧ isFull (b.memory.io h) = false := by
  rw [next, ha, Memory.io]
  cases hfull : isFull ⟨b.memory.region h.region, b.memory.bank h.bank⟩
  all_goals
    simp only [Region.isSet, Memory.io, hfull]
    by_cases hstop : (b.memory.region h.region).get .stop = 1
    · simp [hstop]
    · by_cases hperforming : (b.memory.region h.region).get .performing = 0
      · simp [hperforming]
      · by_cases hpaused : (b.memory.region h.region).get .paused = 1
        · simp [hstop, hperforming, hpaused]
        · simp [hstop, hperforming, hpaused]

/-- The engine makes a block or nothing, and it makes a block only below the mark. -/
theorem Pours.produces_cases (hp : b.Pours c h) (hc : c.fault? = none) :
    b.produces = [] ∨
      (b.produces.length = c.blockSamples ∧ (b.output h).unread < c.markSamples) := by
  rw [produces]
  split
  · next hnext =>
    rw [nextBlock]
    split
    · next e a hb =>
      obtain ⟨rfl, hstreams⟩ := hp.hosted e a hb
      have hactive := active?_of_hosted hb
      obtain ⟨-, -, -, hfull⟩ := (next_eq_perform_iff hactive).1 hnext
      have hbelow : ¬ c.markSamples ≤ (b.output h).unread := by
        intro hmark
        rw [(hp.suits.isFull_iff hc).2 hmark] at hfull
        cases hfull
      split
      · next e' left hmore =>
        cases hover : e.isOver with
        | true =>
          rw [Sine.perform_over _ hover] at hmore
          cases hmore
        | false =>
          obtain ⟨e₁, left₁, hmore₁, hs, -⟩ := Sine.perform_more (b.memory.io h) hover hstreams
          rw [hmore₁] at hmore
          obtain ⟨rfl, -⟩ : e₁ = e' ∧ left₁ = left := by simpa using hmore
          refine .inr ⟨?_, Nat.lt_of_not_le hbelow⟩
          rw [Array.length_toList, hs.size_eq]
      · exact .inl rfl
    · exact .inl rfl
  · exact .inl rfl

/-- The performance goes on: nobody stops or pauses it, and its score has no end. -/
structure Ready (c : Config) (h : Handle) (b : Bench Unit Sine) : Prop where
  pours : b.Pours c h
  hosted : ∃ e, b.hosted = some ⟨e, some ⟨h, .realtime⟩⟩ ∧ e.duration = none
  stop_eq : (b.memory.io h).region.get .stop = 0
  performing_eq : (b.memory.io h).region.get .performing = 1
  paused_eq : (b.memory.io h).region.get .paused = 0

/-- Below the mark a performance that goes on gets a block, and goes on. -/
theorem Ready.step (hr : b.Ready c h) (hc : c.fault? = none)
    (hbelow : (b.output h).unread < c.markSamples) :
    (b.step Sine.engine false).Ready c h ∧ b.produces.length = c.blockSamples := by
  obtain ⟨e, hb, hendless⟩ := hr.hosted
  have hactive := active?_of_hosted hb
  have hover := Sine.isOver_of_endless hendless
  have hfull : isFull (b.memory.io h) = false := by
    rw [Bool.eq_false_iff, ne_eq, hr.pours.suits.isFull_iff hc]
    exact Nat.not_le.2 hbelow
  have hnext : b.next = .perform := by
    refine (next_eq_perform_iff hactive).2 ⟨?_, ?_, ?_, hfull⟩
    · rw [hr.stop_eq]
      decide
    · rw [hr.performing_eq]
      decide
    · rw [hr.paused_eq]
      decide
  obtain ⟨-, hstreams⟩ := hr.pours.hosted e _ hb
  obtain ⟨e', left, hmore, hs, hendless', hregion, -⟩ :=
    Sine.perform_more (b.memory.io h) hover hstreams
  have hblock : b.produces = e'.block.toList := by
    rw [produces, if_pos hnext]
    simp only [nextBlock, hb, hmore]
  have hstep : b.step Sine.engine false = b.perform Sine.engine := by rw [Bench.step, hnext]
  rw [perform_more Sine.engine hb hmore] at hstep
  have hio : ((b.step Sine.engine false).memory.io h).region = (b.memory.io h).region := by
    rw [hstep, ← hregion]
    exact congrArg Io.region (Memory.io_setIo hr.pours.has left)
  refine ⟨⟨(hr.pours.step false).1, ?_, ?_, ?_, ?_⟩, ?_⟩
  · rw [hstep]
    exact ⟨_, rfl, hendless'.trans hendless⟩
  · rw [hio, hr.stop_eq]
  · rw [hio, hr.performing_eq]
  · rw [hio, hr.paused_eq]
  · rw [hblock, Array.length_toList, hs.size_eq]

/-! ### How a performance begins -/

/-- A request for a performance that the engine accepts. -/
theorem start_accepted {e e' : Sine} {left : Io} (hb : b.hosted = some ⟨e, none⟩)
    (hs : Sine.engine.start (b.memory.io h) e = (.ok 0, e', left)) :
    b.start Sine.engine b.number h = (.ok (.int 0), { b with
      hosted := some ⟨e', some ⟨h, e'.mode⟩⟩
      memory := memoryBegun b.memory h left e'.mode
      reports := b.reports ++ [.state e'.mode.started] }) :=
  start_of_accepted hb hs

/-- A request for a performance that the engine refuses. -/
theorem start_refused {e e' : Sine} {left : Io} (hb : b.hosted = some ⟨e, none⟩)
    (hs : Sine.engine.start (b.memory.io h) e = (.ok (-1), e', left)) :
    (b.start Sine.engine b.number h).1 = .ok (.int (-1)) := by
  rw [start_of_refused hb hs (by decide)]

/-- A performance in real time was begun from a configuration: an engine with its settings, and without an
output file, was started on a ring of its size. -/
inductive Begun (c : Config) (h : Handle) (b : Bench Unit Sine) : Prop where
  | intro (before : Bench Unit Sine) (e : Sine) (has : before.memory.Has h)
    (capacity_eq : (before.output h).capacity = c.buffers.ringSamples)
    (hosted_eq : before.hosted = some ⟨e, none⟩) (settings_eq : e.settings = c.engine)
    (output_eq : e.output = none) (started : before.start Sine.engine before.number h = (.ok (.int 0), b))

/-- What a start leaves on its handle. -/
theorem io_started {m : Memory} (hm : m.Has h) (left : Io) (mode : Mode) :
    (memoryBegun m h left mode).io h =
      ⟨left.region.set mode.busy 1, { left.bank with audio := left.bank.audio.clear }⟩ := by
  rw [memoryBegun, Memory.io_modifyRegion ((hm.setIo left).modifyBank _), Memory.io_modifyBank (hm.setIo left),
    Memory.io_setIo hm]

/-- **A performance that was begun pours, from an empty ring that a block fits.** -/
theorem Begun.pours (hbegun : b.Begun c h) (hc : c.fault? = none)
    (hword : c.engine.blockFrames * c.engine.outputs < 2 ^ 31) :
    b.Pours c h ∧ (b.output h).contents = [] ∧ c.blockSamples ≤ c.buffers.ringSamples := by
  obtain ⟨b₀, e, hhas, hcapacity, hb, hsettings, hout, hstart⟩ := hbegun
  have hsamples := Sine.blockSamples_eq hsettings hc hword
  by_cases hfits : e.blockSamples ≤ (b₀.output h).capacity
  · obtain ⟨e', hs, hstreams, -⟩ := Sine.start_realtime (b₀.memory.io h) hout hfits
    rw [start_accepted hb hs] at hstart
    obtain ⟨-, rfl⟩ := Prod.mk.inj hstart
    rw [hsamples] at hstreams
    have hmode := hstreams.mode_eq
    have hio := io_started hhas { b₀.memory.io h with region := e.publish (b₀.memory.io h).region } e'.mode
    rw [hmode] at hio
    obtain ⟨hhardware, hsoftware, houts⟩ := e.publish_get (b₀.memory.io h).region
    rw [hsettings] at hhardware hsoftware houts
    refine ⟨⟨((hhas.setIo _).modifyBank _).modifyRegion _, ?_, ?_⟩, ?_, ?_⟩
    · dsimp only
      rw [hmode, hio]
      refine ⟨Ring.isSound_clear _, hcapacity, ?_, ?_, ?_⟩
      · exact (Region.get_set_other _ _ (by decide)).trans hhardware
      · exact (Region.get_set_other _ _ (by decide)).trans hsoftware
      · exact (Region.get_set_other _ _ (by decide)).trans houts
    · intro e₁ a he
      cases he
      exact ⟨by rw [hmode], hstreams⟩
    · rw [output]
      dsimp only
      rw [hmode, hio]
      exact Ring.contents_clear _
    · rwa [hsamples, hcapacity] at hfits
  · obtain ⟨e', left, hs⟩ := Sine.start_tooLarge (b₀.memory.io h) (Nat.lt_of_not_le hfits)
    have hrefused := start_refused hb hs
    rw [hstart] at hrefused
    exact absurd hrefused (by simp)

/-- **A performance can be begun whose blocks fit the ring, and go on without end.** -/
theorem exists_ready (hc : c.fault? = none) (hword : c.engine.blockFrames * c.engine.outputs < 2 ^ 31)
    (hfits : c.blockSamples ≤ c.buffers.ringSamples) :
    ∃ h b, Begun c h b ∧ Ready c h b := by
  let memory := (Memory.allocIo {} c.buffers.ringSamples c.buffers.midiCapacity).2
  let e := Sine.fresh ⟨c.engine, []⟩
  let b₀ : Bench Unit Sine := { factory := (), hosted := some ⟨e, none⟩, memory := memory }
  have hhas : b₀.memory.Has ⟨0, 0⟩ := ⟨Nat.one_pos, Nat.one_pos⟩
  have hcapacity : (b₀.output ⟨0, 0⟩).capacity = c.buffers.ringSamples := by
    show (Array.replicate (max c.buffers.ringSamples 1) (0 : Float)).size = _
    obtain ⟨-, hcycle, -, hring⟩ := Config.samples_pos hc
    rw [Array.size_replicate]
    omega
  have hsamples : e.blockSamples = c.blockSamples := Sine.blockSamples_eq rfl hc hword
  obtain ⟨e', hs, hstreams, hendless⟩ := Sine.start_realtime (b₀.memory.io ⟨0, 0⟩) (s := e) rfl
    (by rw [hsamples]; exact hfits.trans (Nat.le_of_eq hcapacity.symm))
  have hstart := start_accepted (b := b₀) rfl hs
  have hbegun : Begun c ⟨0, 0⟩ _ := ⟨b₀, e, hhas, hcapacity, rfl, rfl, rfl, hstart⟩
  have hmode := hstreams.mode_eq
  have hio := io_started hhas { b₀.memory.io ⟨0, 0⟩ with region := e.publish Region.fresh } e'.mode
  refine ⟨⟨0, 0⟩, _, hbegun, ⟨(hbegun.pours hc hword).1, ?_, ?_, ?_, ?_⟩⟩
  · exact ⟨e', by rw [hmode], hendless⟩
  · refine (congrArg (fun io => io.region.get .stop) hio).trans ?_
    rw [hmode]
    exact (Region.get_set_other _ _ (by decide)).trans (e.publish_get_other Region.fresh (by decide))
  · refine (congrArg (fun io => io.region.get .performing) hio).trans ?_
    rw [hmode]
    exact Region.get_set_same _ _ _
  · refine (congrArg (fun io => io.region.get .paused) hio).trans ?_
    rw [hmode]
    exact (Region.get_set_other _ _ (by decide)).trans (e.publish_get_other Region.fresh (by decide))

end Bench
end SynthControl
