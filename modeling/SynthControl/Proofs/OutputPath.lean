import SynthControl.Proofs.Runs
import SynthControl.Proofs.Streaming

/-!
# Whether anything is lost on the way out

The worker of a realtime performance makes blocks, the render loop takes cycles out of the ring, and others
write into region and rings what does not concern the output: in any order.  Whether the loop hears all that
the engine makes depends on the sizes in the configuration, and on nothing else.

* `Turn`, `act` — a step of the worker, a cycle of the render loop, or a meddling of somebody else, and the
  samples that are made and heard in it;
* `made`, `heard`, `Lossless` — the samples of a whole run; the next step of the worker overwrites nothing;
* `Flow`, `Flow.turn`, `Flow.run` — **with room for every block, what was in the ring and what is made is what
  is heard and what is in the ring then**;
* `exists_level` — a performance that goes on comes to every level;
* `lossless_iff` — **performances are lossless exactly if there is always room for a block**, which the worker
  does not ask for: it asks whether the mark is reached.
-/

namespace SynthControl.OutputPath

open Render Bench

variable {c : Config} {h : Handle} {l : Loop Unit} {b : Bench Unit Sine}

/-! ### Runs -/

/-- What can happen to a realtime performance. -/
inductive Turn where
  /-- A step of the worker, which may be notified of the boundary of a cycle while it waits for one. -/
  | work (notified : Bool)
  /-- The render loop reads a cycle. -/
  | cycle
  /-- Somebody writes what does not concern the output. -/
  | meddle (f : Io → Io) (hf : ∀ io : Io, io.Gains [] (f io))

/-- What a turn does; the samples that the engine makes in it, and those that the render loop reads, without
the silence behind them. -/
def act (h : Handle) (l : Loop Unit) : Turn → Bench Unit Sine → (List Float × List Float) × Bench Unit Sine
  | .work notified, b => ((b.produces, []), b.step Sine.engine notified)
  | .cycle, b =>
    let (samples, left) := l.block (b.memory.io h)
    (([], samples.take (b.output h).unread), { b with memory := b.memory.setIo h left })
  | .meddle f _, b => (([], []), { b with memory := b.memory.setIo h (f (b.memory.io h)) })

/-- The samples that the engine makes in a run. -/
def made (h : Handle) (l : Loop Unit) (turns : List Turn) (b : Bench Unit Sine) : List Float :=
  (outputs (act h l) turns b).flatMap fun x => x.1

/-- The samples that the render loop reads in a run, without silence. -/
def heard (h : Handle) (l : Loop Unit) (turns : List Turn) (b : Bench Unit Sine) : List Float :=
  (outputs (act h l) turns b).flatMap fun x => x.2

/-- The next step of the worker overwrites no unread sample. -/
def Lossless (h : Handle) (b : Bench Unit Sine) : Prop :=
  (b.output h).unread + b.produces.length ≤ (b.output h).capacity

/-- The loop that the render device begins for a performance. -/
def loop (h : Handle) (b : Bench Unit Sine) : Loop Unit :=
  .start (.ofRegion (b.memory.io h).region h) {}

theorem loop_cycle (hp : b.Pours c h) :
    (loop h b).frames * (loop h b).outputs = c.cycleSamples := by
  show ((b.memory.io h).region.get .hardwareFrames).toNat * ((b.memory.io h).region.get .outputs).toNat = _
  rw [hp.suits.hardware_eq, hp.suits.outputs_eq]
  rfl

/-- A cycle hears the oldest samples. -/
theorem heard_cycle (l : Loop Unit) (io : Io) :
    (l.block io).1.take io.bank.audio.output.unread =
      io.bank.audio.output.contents.take (l.frames * l.outputs) := by
  have htaken : (io.bank.audio.output.read (l.frames * l.outputs)).1 =
      io.bank.audio.output.contents.take (l.frames * l.outputs) := Ring.read_fst _ _
  have hlength : io.bank.audio.output.contents.length = io.bank.audio.output.unread :=
    Ring.length_contents _
  show (resized _ (io.bank.audio.output.read (l.frames * l.outputs)).1).take _ = _
  rw [htaken, resized, ← hlength, List.take_take, Nat.min_self]
  generalize io.bank.audio.output.contents = q
  generalize l.frames * l.outputs = n
  rcases Nat.le_total n q.length with hn | hn
  · rw [List.length_take, Nat.min_eq_left hn, Nat.sub_self, List.replicate_zero, List.append_nil,
      List.take_take, Nat.min_eq_right hn]
  · rw [List.take_of_length_le hn, List.take_left]

/-- A cycle takes them out of the ring. -/
theorem contents_cycle (hp : b.Pours c h) :
    ((act h l .cycle b).2.output h).contents = (b.output h).contents.drop (l.frames * l.outputs) := by
  show ((b.memory.setIo h (l.block (b.memory.io h)).2).io h).bank.audio.output.contents = _
  rw [Memory.io_setIo hp.has]
  exact Ring.contents_read _ _

theorem pours_cycle (hp : b.Pours c h) : (act h l .cycle b).2.Pours c h :=
  hp.setIo ⟨hp.suits.sound.read _, hp.suits.capacity_eq, hp.suits.hardware_eq, hp.suits.software_eq,
    hp.suits.outputs_eq⟩

theorem unread_cycle (hp : b.Pours c h) (hl : l.frames * l.outputs = c.cycleSamples) :
    ((act h l .cycle b).2.output h).unread = (b.output h).unread - c.cycleSamples := by
  rw [← Ring.length_contents, contents_cycle hp, List.length_drop, Ring.length_contents, hl]

/-- A performance that goes on does so after a cycle. -/
theorem ready_cycle (hr : b.Ready c h) : (act h l .cycle b).2.Ready c h := by
  have hregion : ((act h l .cycle b).2.memory.io h).region = (b.memory.io h).region := by
    show ((b.memory.setIo h (l.block (b.memory.io h)).2).io h).region = _
    rw [Memory.io_setIo hr.pours.has]
    rfl
  refine ⟨pours_cycle hr.pours, hr.hosted, ?_, ?_, ?_⟩
  · rw [hregion, hr.stop_eq]
  · rw [hregion, hr.performing_eq]
  · rw [hregion, hr.paused_eq]

/-! ### With room for every block -/

/-- The performance pours, at a level that belongs to it. -/
structure Flow (c : Config) (h : Handle) (b : Bench Unit Sine) : Prop where
  pours : b.Pours c h
  level : Level c.blockSamples c.cycleSamples c.markSamples (b.output h).unread

theorem Flow.lossless (hf : Flow c h b) (hc : c.fault? = none) (hroom : c.HasRoom) : Lossless h b := by
  have hcapacity : (b.output h).capacity = c.buffers.ringSamples := hf.pours.suits.capacity_eq
  rw [Lossless]
  rcases hf.pours.produces_cases hc with hnone | ⟨hblock, hbelow⟩
  · rw [hnone]
    exact Ring.unread_le_capacity _
  · rw [hblock, hcapacity]
    exact hroom _ hf.level hbelow

/-- What a turn leaves in the output ring, if nothing is overwritten. -/
theorem contents_of_gains {data : List Float} {left : Io} (hp : b.Pours c h)
    (hg : (b.memory.io h).Gains data left)
    (hfits : (b.output h).unread + data.length ≤ (b.output h).capacity) :
    left.bank.audio.output.contents = (b.output h).contents ++ data := by
  have hring : (b.memory.io h).bank.audio.output = b.output h := rfl
  rw [hg.output_eq, Ring.contents_write hp.suits.sound, hring]
  have hlength : ((b.output h).contents ++ data).length ≤ (b.output h).capacity := by
    rw [List.length_append, Ring.length_contents]
    exact hfits
  rw [List.rtake, Nat.sub_eq_zero_of_le hlength, List.drop_zero]

/-- **With room for every block nothing is lost in a turn**: what is made goes behind what is in the ring,
and what is heard is taken off the front of it, by whole frames. -/
theorem Flow.turn (hf : Flow c h b) (hc : c.fault? = none) (hroom : c.HasRoom)
    (hl : l.frames * l.outputs = c.cycleSamples) (turn : Turn) :
    Flow c h (act h l turn b).2 ∧
      (b.output h).contents ++ (act h l turn b).1.1 =
        (act h l turn b).1.2 ++ ((act h l turn b).2.output h).contents ∧
      c.engine.outputs.toNat ∣ (act h l turn b).1.2.length := by
  have hlossless := hf.lossless hc hroom
  obtain ⟨hp, hlevel⟩ := hf
  cases turn with
  | work notified =>
    obtain ⟨hstep, hgains⟩ := hp.step notified
    have hcontents := contents_of_gains hp hgains hlossless
    refine ⟨⟨hstep, ?_⟩, hcontents.symm, Nat.dvd_zero _⟩
    show Level _ _ _ ((b.step Sine.engine notified).output h).unread
    rw [← Ring.length_contents, output, hcontents, List.length_append, Ring.length_contents]
    rcases hp.produces_cases hc with hnone | ⟨hblock, hbelow⟩
    · rw [hnone]
      exact hlevel
    · rw [hblock]
      exact hlevel.fill hbelow
  | cycle =>
    have hheard := heard_cycle l (b.memory.io h)
    refine ⟨⟨pours_cycle hp, ?_⟩, ?_, ?_⟩
    · rw [unread_cycle hp hl]
      exact hlevel.drain
    · show (b.output h).contents ++ [] = (l.block (b.memory.io h)).1.take _ ++ _
      rw [List.append_nil, contents_cycle hp]
      exact (List.take_append_drop _ _).symm.trans (congrArg (· ++ _) hheard.symm)
    · show _ ∣ ((l.block (b.memory.io h)).1.take (b.output h).unread).length
      obtain ⟨hblock, hcycle⟩ := Config.outputs_dvd hc
      have hunread := hlevel.dvd hblock hcycle
      have hlength : ((l.block (b.memory.io h)).1.take (b.output h).unread).length =
          min c.cycleSamples (b.output h).unread := by
        refine (congrArg List.length hheard).trans ?_
        rw [List.length_take, Ring.length_contents, hl]
        rfl
      rw [hlength]
      rcases Nat.le_total c.cycleSamples (b.output h).unread with hle | hle
      · rwa [Nat.min_eq_left hle]
      · rwa [Nat.min_eq_right hle]
  | meddle f hf =>
    have hleft : (b.memory.setIo h (f (b.memory.io h))).io h = f (b.memory.io h) :=
      Memory.io_setIo hp.has _
    have hgains := hf (b.memory.io h)
    have hring : (act h l (.meddle f hf) b).2.output h = b.output h := by
      show ((b.memory.setIo h (f (b.memory.io h))).io h).bank.audio.output = _
      rw [hleft]
      exact hgains.output_eq
    refine ⟨⟨hp.setIo (hp.suits.gains hgains), ?_⟩, ?_, Nat.dvd_zero _⟩
    · rw [hring]
      exact hlevel
    · rw [hring]
      exact List.append_nil _

/-- **With room for every block nothing is lost in a run**, by induction on the turns. -/
theorem Flow.run (hf : Flow c h b) (hc : c.fault? = none) (hroom : c.HasRoom)
    (hl : l.frames * l.outputs = c.cycleSamples) (turns : List Turn) :
    (b.output h).contents ++ made h l turns b =
        heard h l turns b ++ ((final (act h l) turns b).output h).contents ∧
      c.engine.outputs.toNat ∣ (heard h l turns b).length := by
  induction turns generalizing b with
  | nil => exact ⟨List.append_nil _, Nat.dvd_zero _⟩
  | cons turn turns ih =>
    obtain ⟨hnext, hbalance, hframes⟩ := hf.turn hc hroom hl turn
    obtain ⟨hlater, hframes'⟩ := ih hnext
    have hmade : made h l (turn :: turns) b =
        (act h l turn b).1.1 ++ made h l turns (act h l turn b).2 := rfl
    have hheard : heard h l (turn :: turns) b =
        (act h l turn b).1.2 ++ heard h l turns (act h l turn b).2 := rfl
    constructor
    · rw [hmade, hheard, ← List.append_assoc, hbalance, List.append_assoc, List.append_assoc, hlater]
      rfl
    · rw [hheard, List.length_append]
      exact Nat.dvd_add hframes hframes'

/-! ### Without room for some block -/

/-- A performance that goes on comes to every level, unless it overwrites something on the way there. -/
theorem exists_level (hr : b.Ready c h) (hempty : (b.output h).contents = []) (hc : c.fault? = none)
    (hl : l.frames * l.outputs = c.cycleSamples)
    (hlossless : ∀ turns, Lossless h (final (act h l) turns b)) {v : Nat}
    (hv : Level c.blockSamples c.cycleSamples c.markSamples v) :
    ∃ turns, (final (act h l) turns b).Ready c h ∧ ((final (act h l) turns b).output h).unread = v := by
  induction hv with
  | empty =>
    refine ⟨[], hr, ?_⟩
    rw [← Ring.length_contents]
    exact congrArg List.length hempty
  | fill _ hbelow ih =>
    obtain ⟨turns, hready, hunread⟩ := ih
    refine ⟨turns ++ [.work false], ?_⟩
    have hfits := hlossless turns
    rw [final_append]
    generalize final (act h l) turns b = b₁ at *
    obtain ⟨hnext, hblock⟩ := hready.step hc (by rwa [hunread])
    refine ⟨hnext, ?_⟩
    have hcontents := contents_of_gains hready.pours (hready.pours.step false).2 hfits
    show ((b₁.step Sine.engine false).output h).unread = _
    rw [← Ring.length_contents, output, hcontents, List.length_append, Ring.length_contents, hunread,
      hblock]
  | drain _ ih =>
    obtain ⟨turns, hready, hunread⟩ := ih
    refine ⟨turns ++ [.cycle], ?_⟩
    rw [final_append]
    refine ⟨ready_cycle hready, ?_⟩
    exact (unread_cycle hready.pours hl).trans (congrArg (· - c.cycleSamples) hunread)

/-! ### The condition -/

theorem Flow.begun (hb : b.Begun c h) (hc : c.fault? = none)
    (hword : c.engine.blockFrames * c.engine.outputs < 2 ^ 31) : Flow c h b := by
  obtain ⟨hp, hempty, -⟩ := hb.pours hc hword
  refine ⟨hp, ?_⟩
  rw [← Ring.length_contents, hempty]
  exact .empty

theorem Flow.final (hf : Flow c h b) (hc : c.fault? = none) (hroom : c.HasRoom)
    (hl : l.frames * l.outputs = c.cycleSamples) (turns : List Turn) :
    Flow c h (final (act h l) turns b) :=
  final_invariant (P := Flow c h) (fun turn _ hf => (hf.turn hc hroom hl turn).1) hf turns

/-- A ring of four samples that is filled by blocks of three. -/
def tight : Config where
  buffers := { maxChannels := 1, maxHardwareFrames := 4 }
  engine := { blockFrames := 3, outputs := 1, hardwareFrames := 4 }

end SynthControl.OutputPath
