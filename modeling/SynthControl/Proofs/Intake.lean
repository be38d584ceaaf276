import SynthControl.Proofs.Starting

/-!
# Who asks for audio input

An engine keeps a flag that it asks for audio input, beside its number of input channels; the transport goes by the
number alone, and a performance by the size of a block that the start allocates.  Options of three forms change the
flag and the number, in any order.

* `Sine.Candid` — the flag says what the number says; `Sine.Tuned.candid` — **in every state of an engine it does**;
* `Sine.Hears`, `Sine.Hears.run` — a performance in real time, with the size of its input block; **turns keep it**;
* `Sine.Draws`, `Sine.SparesInput` — what the blocks of an engine do to the input ring;
* `Render.Loop.Fills`, `Render.Loop.SparesInput` — what the cycles of a render loop do to it;
* `Sine.input_agreed` — **flag, number and block agree**, and the render loop fills the input ring exactly if the
  engine reads it;
* `Sine.input_unfilled` — what happens without a loop, or with a block too large to be counted.
-/

namespace SynthControl

open Render

namespace Sine

/-! ### The flag -/

/-- An engine asks for audio input exactly if it has input channels. -/
def Candid (s : Sine) : Prop := s.wantsInput = true ↔ 0 < s.settings.inputs

section

variable {s s' : Sine} {setup : Setup} {changes : List Change}

theorem Candid.congr (h : s.Candid) (hs : s.SameSetup s') : s'.Candid := by
  rw [Candid, hs.settings_eq, hs.wantsInput_eq]
  exact h

/-- The three forms of options that change the number of input channels change the flag with it. -/
theorem Candid.apply (h : s.Candid) (c : Change) : (s.apply c).Candid := by
  cases c with
  | quantity what n => cases what <;> exact h
  | inputs n => exact decide_eq_true_iff
  | audioInput => exact iff_of_true rfl (Int.lt_of_lt_of_le Int.one_pos (Int.le_max_right _ _))
  | realtime | output path | midi | duration x => exact h

theorem Candid.setOptions (h : s.Candid) (options : List String) : (s.setOptions options).1.Candid := by
  rw [setOptions_fst]
  induction s.taken options generalizing s with
  | nil => exact h
  | cons c cs ih => exact ih (h.apply c)

theorem Candid.build (h : build? setup = .ok s) : s.Candid := by
  have hfresh : (fresh setup).Candid := decide_eq_true_iff
  have hbuilt := hfresh.setOptions setup.options
  rw [build?] at h
  split at h
  · next heq =>
    cases h
    rwa [heq] at hbuilt
  · cases h

/-- **Whatever was done to an engine, it asks for audio input exactly if it has input channels.** -/
theorem Tuned.candid (h : Tuned setup changes s) : s.Candid := by
  induction h with
  | built h => exact .build h
  | @option changes s s' o _ h ih =>
    obtain ⟨c, -, rfl⟩ := setOption?_eq_ok_iff.mp h
    exact ih.apply c
  | @call changes s _ op args ih => exact (ih.setOptions (optionsIn args op)).congr (call_beside s args op).sameSetup
  | @start changes s _ io ih => exact ih.congr (start_sameSetup io s)
  | @perform changes s _ io ih => exact ih.congr (perform_sameSetup io s)
  | @cleanup changes s _ io ih => exact ih.congr (cleanup_sameSetup io s)
  | drain _ ih => exact ih.congr ⟨rfl, rfl, rfl⟩
  | @reset changes s hs ih =>
    obtain ⟨e, he⟩ := hs.build?_isOk
    rw [Sine.reset, hs.tracks.origin_eq, he]
    exact (Candid.build he).congr ⟨rfl, rfl, rfl⟩

end

/-! ### What an engine does to the input ring -/

/-- A performance with these settings goes on in real time, and its input block has a size. -/
structure Hears (s : Sine) (t : Settings) (size : Nat) : Prop where
  performing : s.performing = true
  mode_eq : s.mode = .realtime
  settings_eq : s.settings = t
  input_size : s.input.size = size

/-- A block takes from the input ring what is oldest, as many samples as it has itself. -/
def Draws (s : Sine) : Prop :=
  0 < s.blockSamples ∧ ∀ io, (s.perform io).2.2.bank.audio.input = (io.bank.audio.input.read s.blockSamples).2

/-- Blocks leave the input ring alone. -/
def SparesInput (s : Sine) : Prop := ∀ io, (s.perform io).2.2.bank.audio.input = io.bank.audio.input

section

variable {s s' : Sine} {t : Settings} {size : Nat}

theorem Hears.keeps (h : s.Hears t size) (hk : s.Keeps s') : s'.Hears t size :=
  ⟨hk.performing_eq.trans h.performing, hk.mode_eq.trans h.mode_eq, hk.settings_eq.trans h.settings_eq,
    hk.input_eq ▸ h.input_size⟩

/-- **Every turn of the performance keeps the size.** -/
theorem Hears.after (h : s.Hears t size) (turn : Turn) : (s.after turn).Hears t size := by
  cases turn with
  | perform io =>
    obtain ⟨⟨hsettings, -, -, hmode, hperforming⟩, -, hinput⟩ := perform_filled io s
    exact ⟨hperforming.trans h.performing, hmode.trans h.mode_eq, hsettings.trans h.settings_eq,
      hinput.trans h.input_size⟩
  | call op args => exact h.keeps (call_keeps h.performing op args)
  | drain => exact h.keeps ⟨rfl, rfl, rfl, rfl, rfl⟩

theorem Hears.run (h : s.Hears t size) (turns : List Turn) : (turns.foldl Sine.after s).Hears t size := by
  induction turns generalizing s with
  | nil => exact h
  | cons turn turns ih => exact ih (h.after turn)

/-- A start that is accepted allocates an input block of the size of a block, or none. -/
theorem start_input {io left : Io} (h : s.start io = (.ok 0, s', left)) :
    s'.performing = true ∧ s'.settings = s.settings ∧
      s'.input.size = if s.wantsInput = true then s.blockSamples else 0 := by
  rw [start] at h
  dsimp only at h
  split at h
  · cases h
  · cases h
    refine ⟨rfl, rfl, ?_⟩
    show (if s.wantsInput = true then Array.replicate s.blockSamples (0 : Float) else #[]).size = _
    split
    · exact Array.size_replicate
    · rfl

/-- In real time a block takes as many samples from the input ring as the input block has. -/
theorem perform_input (hmode : s.mode = .realtime) (hover : s.isOver = false) (io : Io) :
    (s.perform io).2.2.bank.audio.input =
      if s.input.size ≠ 0 then (io.bank.audio.input.read s.input.size).2 else io.bank.audio.input := by
  rw [perform, if_neg (by rw [hover]; decide)]
  by_cases hinput : s.input.size ≠ 0
  · simp only [hmode, true_and, if_pos hinput, takeInput]
  · simp only [hmode, true_and, if_neg hinput]

theorem Hears.draws (h : s.Hears t s.blockSamples) (hpos : 0 < s.blockSamples) (hover : s.isOver = false) :
    s.Draws := by
  refine ⟨hpos, fun io => ?_⟩
  rw [perform_input h.mode_eq hover, h.input_size, if_pos (Nat.ne_of_gt hpos)]

theorem Hears.sparesInput (h : s.Hears t 0) (hover : s.isOver = false) : s.SparesInput := by
  intro io
  rw [perform_input h.mode_eq hover, h.input_size, if_neg (by simp)]

/-- An engine that leaves the input ring alone takes nothing from it. -/
theorem SparesInput.not_draws (h : s.SparesInput) : ¬s.Draws := by
  rintro ⟨hpos, hread⟩
  let io : Io := { region := .fresh, bank := { (.create 1 1 : Bank) with
    audio.input := (Ring.create 1 0).write [0] } }
  have hcontents : io.bank.audio.input.contents = [0] := by
    show ((Ring.create 1 (0 : Float)).write [0]).contents = _
    rw [Ring.contents_write (Ring.isSound_create 1 0), Ring.contents_create]
    rfl
  have hdrop := congrArg Ring.contents ((h io).symm.trans (hread io))
  rw [Ring.contents_read, hcontents, List.drop_of_length_le hpos] at hdrop
  cases hdrop

end
end Sine

/-! ### What a render loop does to the input ring -/

namespace Render.Loop

variable {ω : Type} {l : Loop ω}

/-- Every cycle that comes to that writes a block of samples into the input ring. -/
def Fills (l : Loop ω) : Prop :=
  ∀ w io, (l.absorb w io).2.crashed = false →
    ∃ samples called, samples.length = l.frames * l.inputs ∧ samples ≠ [] ∧
      (l.absorb w io).2.io = writeInput samples called

/-- Cycles leave the input ring alone, and ask nobody for input. -/
def SparesInput (l : Loop ω) : Prop := ∀ w io, l.absorb w io = (l, ⟨w, io, false⟩)

theorem fills_of_wantsInput (hwants : l.params.wantsInput = true) (hlength : l.input.length = l.frames * l.inputs)
    (hpos : 0 < l.frames * l.inputs) : l.Fills := by
  intro w io hc
  obtain ⟨samples, called, hsamples, hio⟩ := absorb_frames hwants hlength hc
  exact ⟨samples, called, hsamples, List.ne_nil_of_length_pos (hsamples ▸ hpos), hio⟩

theorem sparesInput_of_wantsInput (hwants : l.params.wantsInput = false) : l.SparesInput := by
  intro w io
  rw [absorb, hwants]
  rfl

/-- A loop without input channels that leaves the input ring alone does not fill it. -/
theorem SparesInput.not_fills (h : l.SparesInput) (hinputs : l.inputs = 0) (w : ω) : ¬l.Fills := by
  intro hfills
  obtain ⟨samples, -, hlength, hne, -⟩ := hfills w ⟨default, default⟩ (by rw [h w])
  rw [hinputs, Nat.mul_zero, List.length_eq_zero_iff] at hlength
  exact hne hlength

end Render.Loop

namespace Sine

/-- Positive counts make blocks that are not empty, if a word has room for their product. -/
theorem blockSamples_pos {s : Sine} (hframes : 0 < s.settings.blockFrames) (houtputs : 0 < s.settings.outputs)
    (hword : s.settings.blockFrames * s.settings.outputs < 2 ^ 31) : 0 < s.blockSamples := by
  have hpos : 0 < s.settings.blockFrames * s.settings.outputs := Int.mul_pos hframes houtputs
  rw [blockSamples_eq_toNat (Int.le_of_lt hpos) hword]
  omega

/-- The transport derives from what a start leaves that there is to be input exactly if the engine asks for it, and the
flag that was published says the same. -/
theorem Candid.published {s : Sine} (hs : s.Candid) {r r' : Region} (h : Handle)
    (hr : ∀ f, f ≠ .performing → r'.get f = (s.publish r).get f) :
    (Parameters.ofRegion r' h).wantsInput = s.wantsInput ∧ (r'.get .wantsInput = 1 ↔ s.wantsInput = true) := by
  have hflag : (s.publish r).get .wantsInput = flag s.wantsInput := Region.get_set_same _ _ _
  refine ⟨?_, ?_⟩
  · rw [Parameters.ofRegion_publish s h hr, Bool.eq_iff_iff, decide_eq_true_iff]
    exact hs.symm
  · rw [hr _ (by decide), hflag]
    cases s.wantsInput <;> decide

/-- A render loop with the input channels of an engine that asks for input fills the input ring, and the blocks of the
engine take samples from it; of one that does not, both leave it alone. -/
theorem Candid.flows {ω : Type} {s now : Sine} {l : Loop ω} (hs : s.Candid) (hpos : 0 < s.blockSamples)
    (hears : now.Hears s.settings (if s.wantsInput = true then s.blockSamples else 0)) (hover : now.isOver = false)
    (hinputs : l.params.inputs = s.settings.inputs) (hwants : l.params.wantsInput = s.wantsInput)
    (husable : Device.isUsable l.params = true) (hlength : l.input.length = l.frames * l.inputs) (w : ω) :
    (l.Fills ↔ now.Draws) ∧ (s.wantsInput = true → l.Fills ∧ now.Draws) ∧
      (s.wantsInput = false → l.SparesInput ∧ now.SparesInput) := by
  rw [Candid, ← hinputs] at hs
  cases hflag : s.wantsInput with
  | true =>
    have hsamples : now.blockSamples = s.blockSamples := by rw [blockSamples, hears.settings_eq, blockSamples]
    rw [if_pos hflag, ← hsamples] at hears
    have hdraws := hears.draws (hsamples ▸ hpos) hover
    have hchannels : 0 < l.inputs := Int.lt_toNat.mpr (hs.mp hflag)
    have hcycle : 0 < l.frames := by
      simp only [Device.isUsable, Bool.and_eq_true, decide_eq_true_eq] at husable
      exact Int.lt_toNat.mpr husable.1.2
    have hfills := Loop.fills_of_wantsInput (hwants.trans hflag) hlength (Nat.mul_pos hcycle hchannels)
    exact ⟨iff_of_true hfills hdraws, fun _ => ⟨hfills, hdraws⟩, fun h => absurd h.symm Bool.false_ne_true⟩
  | false =>
    have hneg : ¬s.wantsInput = true := by rw [hflag]; decide
    rw [if_neg hneg] at hears
    have hspares := hears.sparesInput hover
    have hchannels : l.inputs = 0 := Int.toNat_of_nonpos (Int.not_lt.mp (mt hs.mpr hneg))
    have hleaves := Loop.sparesInput_of_wantsInput (hwants.trans hflag)
    refine ⟨iff_of_false (hleaves.not_fills hchannels w) hspares.not_draws, ?_, fun _ => ⟨hleaves, hspares⟩⟩
    exact fun h => absurd h Bool.false_ne_true

/-- **Flag, number and block agree.**  An engine was built from any setup, and given options, operations, starts,
blocks, cleanups and resets, in any order: it asks for audio input exactly if it has input channels.  So after every
start with status zero, whatever is written about a running performance by then:

* the flag in the region says what the transport derives from the number of input channels in it;
* that is whether the engine has an input block that is not empty, if frames per block and output channels are
  positive and a word has room for their product;
* and in real time the render loop that is begun with what the transport read, if a loop can run with it, fills the
  input ring exactly if the blocks of the engine, after any turns of the performance, take samples from it; if not,
  both leave it alone. -/
theorem input_agreed {setup : Setup} {changes : List Change} {s : Sine} (hs : Tuned setup changes s) :
    (s.wantsInput = true ↔ 0 < s.settings.inputs) ∧
    ∀ (io left : Io) (e : Sine), s.start io = (.ok 0, e, left) →
      ∀ (r : Region) (h : Handle), (∀ f, f ≠ .performing → r.get f = left.region.get f) →
        let asked := (Parameters.ofRegion r h).wantsInput
        (r.get .wantsInput = 1 ↔ asked = true) ∧
        (0 < s.settings.blockFrames → 0 < s.settings.outputs →
          s.settings.blockFrames * s.settings.outputs < 2 ^ 31 →
            (asked = true ↔ e.input.size ≠ 0) ∧
            (e.mode = .realtime → ∀ turns : List Turn, (turns.foldl after e).isOver = false →
              ∀ (ω : Type) (_ : ω) (l : Loop ω), l.params = .ofRegion r h → Device.isUsable l.params = true →
                l.input.length = l.frames * l.inputs →
                  (l.Fills ↔ (turns.foldl after e).Draws) ∧
                  (asked = true → l.Fills ∧ (turns.foldl after e).Draws) ∧
                  (asked = false → l.SparesInput ∧ (turns.foldl after e).SparesInput))) := by
  have hcandid := hs.candid
  refine ⟨hcandid, fun io left e hstart r h hr => ?_⟩
  obtain ⟨rfl, -⟩ := start_left hstart
  obtain ⟨hasked, hflag⟩ := hcandid.published h hr
  intro asked
  have hwants : asked = s.wantsInput := hasked
  rw [hwants]
  refine ⟨hflag, fun hframes houtputs hword => ?_⟩
  have hpos := blockSamples_pos hframes houtputs hword
  obtain ⟨hperforming, hsettings, hsize⟩ := start_input hstart
  refine ⟨?_, fun hmode turns hover ω w l hparams husable hlength => ?_⟩
  · rw [hsize]
    split
    · next hflag => exact iff_of_true hflag (Nat.ne_of_gt hpos)
    · next hflag => exact iff_of_false hflag (by simp)
  · have hears := Hears.run ⟨hperforming, hmode, hsettings, hsize⟩ turns
    have hinputs : l.params.inputs = s.settings.inputs := by rw [hparams, Parameters.ofRegion_publish s h hr]
    have hloop : l.params.wantsInput = s.wantsInput := (congrArg Parameters.wantsInput hparams).trans hasked
    exact hcandid.flows hpos hears hover hinputs hloop husable hlength w

/-- An engine without input channels is told to take audio input: it has an input block after its start, and the loop
that is begun then fills the input ring, from which the engine reads.  Told afterwards that there are less than no
input channels, it does not. -/
theorem input_agreed_adc :
    let s := (fresh ⟨{}, []⟩).apply .audioInput
    let io : Io := ⟨.fresh, .create 64 4⟩
    (fresh ⟨{}, []⟩).setOption? "-iadc" = .ok s ∧
      (∃ e left, s.start io = (.ok 0, e, left) ∧ left.region.get .wantsInput = 1 ∧ e.input.size ≠ 0 ∧
        (Loop.start (.ofRegion left.region ⟨0, 0⟩) ({} : Hooks Unit)).Fills ∧ e.Draws) ∧
      s.setOption? "--nchnls_i=-1" = .ok (s.apply (.inputs (-1))) ∧
      ∃ e left, (s.apply (.inputs (-1))).start io = (.ok 0, e, left) ∧ left.region.get .wantsInput ≠ 1 ∧
        e.input.size = 0 := by
  intro s io
  have hoption : (fresh ⟨{}, []⟩).setOption? "-iadc" = .ok s := rfl
  have hoption' : s.setOption? "--nchnls_i=-1" = .ok (s.apply (.inputs (-1))) := rfl
  have hbuilt : Tuned ⟨{}, []⟩ [] (fresh ⟨{}, []⟩) := .built rfl
  have hs := hbuilt.option hoption
  obtain ⟨e, hstart, hstreams, hendless⟩ := start_realtime io (s := s) rfl (by decide)
  obtain ⟨e', hstart', -⟩ := start_realtime io (s := s.apply (.inputs (-1))) rfl (by decide)
  refine ⟨hoption, ⟨e, _, hstart, ?_⟩, hoption', e', _, hstart', ?_⟩
  · obtain ⟨hflag, hblock⟩ := (input_agreed hs).2 io _ e hstart _ ⟨0, 0⟩ fun _ _ => rfl
    obtain ⟨hsize, hflows⟩ := hblock (by decide) (by decide) (by decide)
    have hover := isOver_of_endless hendless
    have hasked : (Parameters.ofRegion (s.publish io.region) ⟨0, 0⟩).wantsInput = true := by decide
    obtain ⟨-, hfills, -⟩ := hflows hstreams.mode_eq [] hover Unit () (Loop.start _ {}) rfl (by decide)
      List.length_replicate
    exact ⟨hflag.mpr hasked, hsize.mp hasked, hfills hasked⟩
  · obtain ⟨hflag, hblock⟩ := (input_agreed (hs.option hoption')).2 io _ e' hstart' _ ⟨0, 0⟩ fun _ _ => rfl
    obtain ⟨hsize, -⟩ := hblock (by decide) (by decide) (by decide)
    have hasked : ¬(Parameters.ofRegion ((s.apply (.inputs (-1))).publish io.region) ⟨0, 0⟩).wantsInput = true := by
      decide
    exact ⟨mt hflag.mp hasked, Decidable.not_not.mp (mt hsize.mpr hasked)⟩

/-- The render loop does not fill what the engine reads if the device refuses the parameters: with a sample rate of zero
the engine starts, asks for input and reads it, and the device has no loop.  And a block whose product a word has no
room for, such as one of 65536 frames with 65536 channels, is empty although input is asked for. -/
theorem input_unfilled :
    let unusable : Setup := ⟨{ sampleRate := 0, blockFrames := 2, outputs := 1, inputs := 1, hardwareFrames := 4 }, []⟩
    let large : Setup := ⟨{ blockFrames := 65536, outputs := 65536, inputs := 1 }, []⟩
    let io : Io := ⟨.fresh, .create 64 4⟩
    let d : Device Unit := .create false {}
    (∃ s e left, Tuned unusable [] s ∧ s.start io = (.ok 0, e, left) ∧ left.region.get .wantsInput = 1 ∧
      e.mode = .realtime ∧ e.input.size = 2 ∧ e.Draws ∧
      d.configure (.ofRegion left.region ⟨0, 0⟩) = (.error (.unusable 0 1 4), d) ∧
      (∀ m, d.follow .realtimeStarted () m = (.error .notConfigured, d, (), m)) ∧ d.loop = none) ∧
    ∃ s e left, Tuned large [] s ∧ s.start io = (.ok 0, e, left) ∧ left.region.get .wantsInput = 1 ∧
      e.input.size = 0 := by
  intro unusable large io d
  obtain ⟨e, hstart, hstreams, hendless⟩ := start_realtime io (s := fresh unusable) rfl (by decide)
  obtain ⟨e', hstart', -⟩ := start_realtime io (s := fresh large) rfl (by decide)
  obtain ⟨hperforming, hsettings, hsize⟩ := start_input hstart
  obtain ⟨-, -, hsize'⟩ := start_input hstart'
  have hover := isOver_of_endless hendless
  have hblock : e.blockSamples = 2 := by
    rw [blockSamples, hsettings]
    decide
  have hears : e.Hears (fresh unusable).settings e.blockSamples :=
    ⟨hperforming, hstreams.mode_eq, hsettings, hsize.trans hblock.symm⟩
  refine ⟨⟨_, e, _, .built rfl, hstart, by decide, hstreams.mode_eq, hsize, hears.draws (by omega) hover, rfl,
    fun m => rfl, rfl⟩, ?_⟩
  exact ⟨_, e', _, .built rfl, hstart', by decide, hsize'⟩

end Sine
end SynthControl
