import SynthControl.Proofs.Adjustments
import SynthControl.Proofs.Streaming
import SynthControl.Session.Outlets

/-!
# Starting from a usable configuration

A configuration that can be used goes through the whole start of a realtime performance: the rings have its size,
the engine its settings, the engine publishes them in the region, the transport reads them there, and the render
device is configured with what was read.

* `Config.parameters` — what the render device is to be configured with;
* `Sine.build?_plain`, `Sine.start_status` — the engine without options, and **the status of its start**;
* `Parameters.ofRegion_publish` — what is published is read;
* `Config.isUsable_parameters`, `Config.cycles_fit` — **the device accepts it, and the blocks of a render cycle fit
  the rings**;
* `start_sound` — the start of the worker, and what the transport makes of it.
-/

namespace SynthControl

open Render

/-- What the render device is to be configured with, on a handle. -/
def Config.parameters (c : Config) (h : Handle) : Parameters :=
  { sampleRate := c.engine.sampleRate
    inputs := c.engine.inputs
    outputs := c.engine.outputs
    hardwareFrames := c.engine.hardwareFrames
    softwareFrames := c.engine.softwareFrames
    wantsInput := 0 < c.engine.inputs
    wantsMidi := false
    io := h }

namespace Sine

/-- Without options an engine is built as its settings say. -/
theorem build?_plain (t : Settings) : build? ⟨t, []⟩ = .ok (fresh ⟨t, []⟩) := rfl

/-- The samples in a block of an engine with the settings of a configuration, as the configuration counts them. -/
theorem blockSamples_of_word {s : Sine} {c : Config} (hs : s.settings = c.engine) (hc : c.fault? = none)
    (hword : c.engine.blockFrames * c.engine.outputs < 2 ^ 31) :
    (s.blockSamples : Int) = c.engine.blockFrames * c.engine.outputs := by
  obtain ⟨-, -, -, hrate, hframes, houtputs, -⟩ := Config.fault?_eq_none_iff.1 hc
  have hcast := blockSamples_cast (s := s) (by rw [hs]; exact ⟨hrate, hframes, houtputs⟩) (by rw [hs]; exact hword)
  rwa [hs] at hcast

/-- **A start is refused exactly if a block does not fit the output ring.** -/
theorem start_status (io : Io) (s : Sine) :
    ∃ e, s.start io =
      (.ok (if s.blockSamples ≤ io.bank.audio.output.capacity then 0 else -1), e,
        { io with region := s.publish io.region }) := by
  rw [start]
  dsimp only
  split
  · next hlarge => exact ⟨_, by rw [if_neg (Nat.not_le.2 hlarge)]⟩
  · next hfits => exact ⟨_, by rw [if_pos (Nat.not_lt.1 hfits)]⟩

end Sine

/-- What an engine publishes is what the transport reads, whatever is written about a running performance. -/
theorem Parameters.ofRegion_publish (s : Sine) {r r' : Region} (h : Handle)
    (hr : ∀ f, f ≠ .performing → r'.get f = (s.publish r).get f) :
    Parameters.ofRegion r' h =
      { sampleRate := s.settings.sampleRate
        inputs := s.settings.inputs
        outputs := s.settings.outputs
        hardwareFrames := s.settings.hardwareFrames
        softwareFrames := s.settings.softwareFrames
        wantsInput := 0 < s.settings.inputs
        wantsMidi := s.wantsMidi
        io := h } := by
  obtain ⟨hrate, -, houtputs, hinputs, hhardware, hsoftware⟩ := s.publish_settings r
  have hmidi : (s.publish r).get .wantsMidi = Sine.flag s.wantsMidi := by
    simp [Sine.publish, Region.get_set_other]
  have hasked : r'.isSet .wantsMidi = s.wantsMidi := by
    rw [Region.isSet, hr _ (by decide), hmidi]
    cases s.wantsMidi <;> rfl
  rw [Parameters.ofRegion, hr _ (by decide), hr _ (by decide), hr _ (by decide), hr _ (by decide),
    hr _ (by decide), hrate, houtputs, hinputs, hhardware, hsoftware, hasked]

namespace Config

variable {c : Config}

/-- The device accepts what a usable configuration comes to. -/
theorem isUsable_parameters (hc : c.fault? = none) (h : Handle) : Device.isUsable (c.parameters h) = true := by
  obtain ⟨-, -, -, hrate, -, houtputs, -, -, -, hhardware, -⟩ := fault?_eq_none_iff.1 hc
  simp [Device.isUsable, parameters, hrate, houtputs, hhardware]

/-- The blocks of a render cycle fit rings of the size that the configuration gives them. -/
theorem cycles_fit (hc : c.fault? = none) :
    c.engine.hardwareFrames * c.engine.outputs ≤ c.buffers.ringSamples ∧
      c.engine.hardwareFrames * c.engine.inputs ≤ c.buffers.ringSamples := by
  obtain ⟨-, -, -, -, -, houtputs, hmost, hinputs, hmost', hhardware, hcycle⟩ := fault?_eq_none_iff.1 hc
  have hring : (c.buffers.ringSamples : Int) = c.buffers.maxHardwareFrames * c.buffers.maxChannels := by
    rw [Buffers.ringSamples, Nat.mul_comm, Int.natCast_mul]
  rw [hring]
  exact ⟨Int.mul_le_mul hcycle hmost (Int.le_of_lt houtputs) (Int.natCast_nonneg _),
    Int.mul_le_mul hcycle hmost' hinputs (Int.natCast_nonneg _)⟩

end Config

/-! ### The whole start -/

/-- The device is configured with what the transport reads. -/
theorem Stage.configure_device {ω : Type} (s : Stage (Outlets ω)) {d : Device ω} (hd : s.around.device = some d)
    (hu : Device.isUsable (.ofRegion s.region s.transport.io) = true) :
    (s.configure Outlets.surroundings).around.device =
      some { d with params := some (.ofRegion s.region s.transport.io) } := by
  simp only [Stage.configure, Outlets.surroundings, Outlets.configure, hd, Device.configure, if_pos hu]

namespace Bench

variable {b : Bench Unit Sine} {h : Handle}

/-- A start that an engine without an output file accepts leaves what it publishes, and rings of their sizes. -/
theorem start_leaves {e : Sine} (hhas : b.memory.Has h) (hb : b.hosted = some ⟨e, none⟩) (hout : e.output = none)
    (hfits : e.blockSamples ≤ (b.memory.io h).bank.audio.output.capacity) :
    let left := (b.start Sine.engine b.number h).2.memory.io h
    (b.start Sine.engine b.number h).1 = .ok (.int 0) ∧
      (∀ f, f ≠ .performing → left.region.get f = (e.publish (b.memory.io h).region).get f) ∧
      left.bank.audio.output.capacity = (b.memory.io h).bank.audio.output.capacity ∧
      left.bank.audio.input.capacity = (b.memory.io h).bank.audio.input.capacity := by
  obtain ⟨e', hs, hstreams, -⟩ := Sine.start_realtime (b.memory.io h) hout hfits
  rw [start_accepted hb hs, hstreams.mode_eq]
  dsimp only
  rw [io_started hhas]
  refine ⟨rfl, fun f hf => ?_, rfl, rfl⟩
  exact Region.get_set_other _ _ hf

end Bench

/-- **What validation accepts goes through the whole start.**  With rings of the size that the configuration gives
them, and an engine of its settings without options, the status of a start is zero exactly if a block fits the ring,
and minus one otherwise.  After a start with status zero the render device accepts what the transport reads from the
region: the settings of the engine, with input exactly if there are input channels; and the blocks of a render cycle
fit their rings in both directions. -/
theorem start_sound {c : Config} (hc : c.validate = .ok ())
    (hword : c.engine.blockFrames * c.engine.outputs < 2 ^ 31) {e : Sine} (he : Sine.build? ⟨c.engine, []⟩ = .ok e)
    {b : Bench Unit Sine} {h : Handle} (hhas : b.memory.Has h) (hb : b.hosted = some ⟨e, none⟩)
    (houtput : (b.memory.io h).bank.audio.output.capacity = c.buffers.ringSamples)
    (hinput : (b.memory.io h).bank.audio.input.capacity = c.buffers.ringSamples) :
    let status : Int := if c.engine.blockFrames * c.engine.outputs ≤ c.buffers.ringSamples then 0 else -1
    let started := b.start Sine.engine b.number h
    (e.start (b.memory.io h)).1 = .ok status ∧ started.1 = .ok (.int status) ∧
      (status = 0 →
        (∀ {ω : Type} (s : Stage (Outlets ω)) (d : Device ω), s.memory = started.2.memory → s.transport.io = h →
          s.around.device = some d →
            Parameters.ofRegion s.region h = c.parameters h ∧ (d.configure (c.parameters h)).1 = .ok () ∧
            (s.configure Outlets.surroundings).around.device = some { d with params := some (c.parameters h) }) ∧
        let rings := (started.2.memory.io h).bank.audio
        c.engine.hardwareFrames * c.engine.outputs ≤ rings.output.capacity ∧
          c.engine.hardwareFrames * c.engine.inputs ≤ rings.input.capacity) := by
  have hc' : c.fault? = none := Config.validate_eq_ok_iff.1 hc
  obtain rfl : Sine.fresh ⟨c.engine, []⟩ = e := by simpa [Sine.build?_plain] using he
  have hsamples := Sine.blockSamples_of_word (s := Sine.fresh ⟨c.engine, []⟩) rfl hc' hword
  have hfits : (Sine.fresh ⟨c.engine, []⟩).blockSamples ≤ (b.memory.io h).bank.audio.output.capacity ↔
      c.engine.blockFrames * c.engine.outputs ≤ c.buffers.ringSamples := by
    rw [houtput, ← hsamples, Int.ofNat_le]
  obtain ⟨e', hstart⟩ := Sine.start_status (b.memory.io h) (Sine.fresh ⟨c.engine, []⟩)
  by_cases hroom : c.engine.blockFrames * c.engine.outputs ≤ c.buffers.ringSamples
  · obtain ⟨hstatus, hwords, hout, hin⟩ := Bench.start_leaves hhas hb rfl (hfits.2 hroom)
    rw [if_pos (hfits.2 hroom)] at hstart
    rw [if_pos hroom, hstart]
    refine ⟨rfl, hstatus, fun _ => ⟨fun s d hm hio hd => ?_, ?_⟩⟩
    · have hread : Parameters.ofRegion s.region h = c.parameters h := by
        rw [Stage.region, hio, hm]
        exact Parameters.ofRegion_publish _ h hwords
      have husable := Config.isUsable_parameters hc' h
      refine ⟨hread, (Device.configure_ok_iff d _).2 husable, ?_⟩
      have hconfigured := s.configure_device hd (by rw [hio, hread]; exact husable)
      rwa [hio, hread] at hconfigured
    · dsimp only
      rw [hout, hin, houtput, hinput]
      exact Config.cycles_fit hc'
  · rw [if_neg (mt hfits.1 hroom)] at hstart
    rw [if_neg hroom, hstart]
    exact ⟨rfl, Bench.start_refused hb hstart, fun hzero => absurd hzero (by decide)⟩

/-- A configuration with input, of which a block just fits the ring, starts. -/
theorem start_sound_stereo :
    let c : Config := { buffers := { maxChannels := 2, maxHardwareFrames := 16 }
                        engine := { blockFrames := 16, inputs := 1, hardwareFrames := 16 } }
    let b : Bench Unit Sine := { factory := (), hosted := some ⟨Sine.fresh ⟨c.engine, []⟩, none⟩
                                 memory := (Memory.allocIo {} c.buffers.ringSamples c.buffers.midiCapacity).2 }
    c.validate = .ok () ∧ (b.start Sine.engine b.number ⟨0, 0⟩).1 = .ok (.int 0) ∧
      (c.parameters ⟨0, 0⟩).wantsInput = true ∧
      ∀ s : Stage (Outlets Unit), s.memory = (b.start Sine.engine b.number ⟨0, 0⟩).2.memory →
        s.transport.io = ⟨0, 0⟩ → s.around.device = some (Device.create true {}) →
        (s.configure Outlets.surroundings).around.device =
          some { Device.create true {} with params := some (c.parameters ⟨0, 0⟩) } := by
  intro c b
  have hvalid : c.validate = .ok () := by decide
  have hhas : b.memory.Has ⟨0, 0⟩ := ⟨Nat.one_pos, Nat.one_pos⟩
  obtain ⟨-, hstatus, hready⟩ :=
    start_sound hvalid (by decide) rfl hhas rfl (by decide : (b.memory.io ⟨0, 0⟩).bank.audio.output.capacity = _)
      (by decide)
  exact ⟨hvalid, hstatus, rfl, fun s hm hio hd => ((hready rfl).1 s _ hm hio hd).2.2⟩

end SynthControl
