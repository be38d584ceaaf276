import SynthControl.Proofs.Effects
import SynthControl.Proofs.Streaming

/-!
# How audio input is mixed into the output

The sine engine adds what it reads from the input ring to what it plays.  It reads blocks of `k * n` samples for
`k` frames with `n` output channels, while the render loop writes frames of `i` samples for `i` input channels.

* `call_keeps` — **while a performance goes on, no operation changes the settings or the blocks**;
* `Tone.level`, `Oscillator.getElem?_frames` — what the oscillator writes, sample by sample;
* `Monitors`, `Monitors.perform`, `Monitors.run` — a performance with audio input; **what a block takes and where
  it mixes it in**, in every state that turns of the performance lead to;
* `place_iff` — which places of a block lie in the same frame of the input;
* `lines_up_iff` — **input and output frames line up exactly if there are as many channels of both**, a block of
  a single frame apart.
-/

namespace SynthControl

open Render

namespace Sine

/-! ### What an operation leaves alone while a performance goes on -/

section

variable {s s' : Sine}

theorem setOption?_keeps (hp : s.performing = true) {option : String} (h : s.setOption? option = .ok s') :
    s.Keeps s' := by
  obtain ⟨c, hread, rfl⟩ := setOption?_eq_ok_iff.1 h
  obtain ⟨x, rfl⟩ := readOption_duration hp hread
  exact ⟨rfl, rfl, rfl, rfl, rfl⟩

theorem setOptions_keeps (hp : s.performing = true) (options : List String) :
    s.Keeps (s.setOptions options).1 := by
  induction options generalizing s with
  | nil => exact .refl s
  | cons option options ih =>
    rw [setOptions]
    split
    · next s' h =>
      have hkeeps := setOption?_keeps hp h
      exact hkeeps.trans (ih (hkeeps.performing_eq.trans hp))
    · exact .refl s

/-- **While a performance goes on an operation keeps the engine's settings and blocks.** -/
theorem call_keeps (hp : s.performing = true) (op : Operation) (args : List Value) :
    s.Keeps (s.call op args).2 :=
  (setOptions_keeps hp (optionsIn args op)).trans (call_aside s args op).keeps

end

/-! ### What the oscillator writes -/

/-- What the oscillator writes into a frame before the input is added, beginning with a phase. -/
def Tone.level (t : Tone) (phase : Float) : Nat → Float
  | 0 => t.entry phase * t.amplitude
  | f + 1 => t.level (fractional (phase + t.increment)) f

/-- The input has no part in it. -/
theorem Tone.level_input (t : Tone) (input : Array Float) (phase : Float) (f : Nat) :
    { t with input := input }.level phase f = t.level phase f := by
  induction f generalizing phase with
  | zero => rfl
  | succ f ih => exact ih _

/-- Writing into consecutive places shows there, and nowhere else. -/
theorem getElem?_foldl_range (g : Nat → Float) (base n : Nat) (block : Array Float) (j : Nat) :
    ((List.range n).foldl (fun b c => b.setIfInBounds (base + c) (g (base + c))) block)[j]? =
      if base ≤ j ∧ j < base + n ∧ j < block.size then some (g j) else block[j]? := by
  induction n with
  | zero =>
    rw [if_neg (by omega)]
    rfl
  | succ n ih =>
    rw [List.range_succ, List.foldl_append, List.foldl_cons, List.foldl_nil,
      Array.getElem?_setIfInBounds, size_foldl_setIfInBounds, ih]
    by_cases hj : base + n = j
    · subst hj
      by_cases hsize : base + n < block.size <;> simp [hsize]
    · rw [if_neg hj]
      refine if_congr ?_ rfl rfl
      omega

namespace Oscillator

/-- A frame is written into its place in the block, with the input sample of the same place added. -/
theorem getElem?_frame (t : Tone) (o : Oscillator) (frame j : Nat) :
    (o.frame t frame).block[j]? =
      if frame * t.channels ≤ j ∧ j < frame * t.channels + t.channels ∧ j < o.block.size then
        some (t.entry o.phase * t.amplitude + t.input.getD j 0)
      else o.block[j]? :=
  getElem?_foldl_range (fun i => t.entry o.phase * t.amplitude + t.input.getD i 0) _ _ _ _

/-- What lies before the frames that are written stays. -/
theorem getElem?_frames_before (t : Tone) (n start : Nat) (o : Oscillator) {j : Nat}
    (hj : j < start * t.channels) : (frames t n start o).block[j]? = o.block[j]? := by
  induction n generalizing start o with
  | zero => rfl
  | succ n ih =>
    rw [frames, ih (start + 1) _ (by rw [Nat.add_mul]; omega), getElem?_frame, if_neg (by omega)]

/-- **Every frame of a block is its level, with the input samples of the same places added.** -/
theorem getElem?_frames (t : Tone) (n start : Nat) (o : Oscillator) {f c : Nat} (hf : f < n)
    (hc : c < t.channels) (hsize : (start + f) * t.channels + c < o.block.size) :
    (frames t n start o).block[(start + f) * t.channels + c]? =
      some (t.level o.phase f + t.input.getD ((start + f) * t.channels + c) 0) := by
  induction n generalizing start o f with
  | zero => exact absurd hf (Nat.not_lt_zero f)
  | succ n ih =>
    rw [frames]
    cases f with
    | zero =>
      simp only [Nat.add_zero] at hsize ⊢
      have hnext : start * t.channels + c < (start + 1) * t.channels := by
        rw [Nat.add_mul]
        omega
      -- the frames that follow leave this one alone
      rw [getElem?_frames_before t n (start + 1) _ hnext, getElem?_frame, if_pos (by omega)]
      rfl
    | succ f =>
      have h := ih (start + 1) (o.frame t start) (Nat.lt_of_succ_lt_succ hf)
        (by rw [size_frame]; rwa [Nat.add_assoc, Nat.add_comm 1 f])
      rwa [Nat.add_assoc, Nat.add_comm 1 f] at h

end Oscillator

/-! ### A performance with audio input -/

/-- A performance in real time with audio input goes on, and its blocks have their sizes. -/
structure Monitors (s : Sine) (frames outputs : Nat) : Prop where
  performing : s.performing = true
  mode_eq : s.mode = .realtime
  frames_eq : s.settings.blockFrames = frames
  outputs_eq : s.settings.outputs = outputs
  block_size : s.block.size = frames * outputs
  input_size : s.input.size = frames * outputs

section

variable {s s' : Sine} {k n : Nat}

theorem Monitors.keeps (h : s.Monitors k n) (hkeeps : s.Keeps s') : s'.Monitors k n := by
  obtain ⟨hperforming, hmode, hsettings, hblock, hinput⟩ := hkeeps
  refine ⟨hperforming.trans h.performing, hmode.trans h.mode_eq, ?_, ?_, ?_, ?_⟩
  · rw [hsettings, h.frames_eq]
  · rw [hsettings, h.outputs_eq]
  · rw [hblock, h.block_size]
  · rw [hinput, h.input_size]

/-- A start with audio input that is accepted begins one. -/
theorem Monitors.start {io left : Io} (hstart : s.start io = (.ok 0, s', left)) (hreal : s.output = none)
    (hwants : s.wantsInput = true) (hframes : s.settings.blockFrames = k) (houtputs : s.settings.outputs = n)
    (hword : k * n < 2 ^ 31) : s'.Monitors k n ∧ left = { io with region := s.publish io.region } := by
  have hsamples : s.blockSamples = k * n := by
    have hproduct : s.settings.blockFrames * s.settings.outputs = (k * n : Nat) := by
      rw [hframes, houtputs, Int.natCast_mul]
    rw [blockSamples_eq_toNat (by omega) (by omega), hproduct, Int.toNat_natCast]
  rw [Sine.start] at hstart
  dsimp only at hstart
  split at hstart
  · cases hstart
  · cases hstart
    refine ⟨⟨rfl, ?_, hframes, houtputs, ?_, ?_⟩, rfl⟩
    · simp [print, hreal]
    · simp [print, hsamples]
    · simp [print, hsamples, hwants]

@[simp] theorem takeInput_size (io : Io) (s : Sine) : (s.takeInput io).1.input.size = s.input.size := by
  rw [takeInput]
  dsimp only
  rw [List.size_toArray, List.length_append, List.length_replicate, Ring.read_fst, List.length_take]
  omega

/-- The input block is filled from the input ring, with silence behind what there is. -/
theorem takeInput_input (io : Io) (s : Sine) {j : Nat} (hj : j < s.input.size) :
    (s.takeInput io).1.input.getD j 0 = (io.bank.audio.input.contents[j]?).getD 0 := by
  rw [takeInput]
  dsimp only
  rw [Array.getD_eq_getD_getElem?, List.getElem?_toArray, Ring.read_fst, List.getElem?_append]
  split
  · next hlt => rw [List.getElem?_take_of_lt hj]
  · next hge =>
    rw [List.length_take] at hge
    rw [List.getElem?_replicate, List.getElem?_eq_none (by omega)]
    split <;> rfl

/-- The oscillator after it has filled a block, with the input that was taken. -/
def mixed (io : Io) (s : Sine) : Oscillator :=
  .frames (s.takeInput io).1.tone s.settings.blockFrames.toNat 0 ⟨s.phase, s.block⟩

theorem Monitors.perform_eq (h : s.Monitors k n) (hpos : 0 < k * n) (hover : s.isOver = false) (io : Io) :
    s.perform io = (.ok .more,
      { (s.takeInput io).1 with
        phase := (s.mixed io).phase
        block := (s.mixed io).block
        framesDone := s.framesDone + s.settings.blockFrames.toNat },
      { (s.takeInput io).2 with
        bank.audio.output := io.bank.audio.output.write (s.mixed io).block.toList }) := by
  have hinput : s.input.size ≠ 0 := by
    rw [h.input_size]
    exact Nat.ne_of_gt hpos
  rw [Sine.perform, if_neg (by rw [hover]; decide)]
  simp only [h.mode_eq, true_and, if_pos hinput, takeInput, mixed]

/-- **A block takes samples from the input ring as if there were as many input channels as outputs**, and
mixes them into the output in their order. -/
theorem Monitors.perform (h : s.Monitors k n) (hpos : 0 < k * n) (hover : s.isOver = false) (io : Io) :
    ∃ e left, s.perform io = (.ok .more, e, left) ∧ e.Monitors k n ∧
      left.bank.audio.input.contents = io.bank.audio.input.contents.drop (k * n) ∧
      left.bank.audio.output = io.bank.audio.output.write e.block.toList ∧
      ∀ f < k, ∀ c < n, e.block[f * n + c]? =
        some (s.tone.level s.phase f + (io.bank.audio.input.contents[f * n + c]?).getD 0) := by
  have hblock : (s.mixed io).block.size = k * n := (Oscillator.size_frames _ _ _ _).trans h.block_size
  refine ⟨_, _, h.perform_eq hpos hover io,
    ⟨h.performing, h.mode_eq, h.frames_eq, h.outputs_eq, hblock, ?_⟩, ?_, rfl, fun f hf c hc => ?_⟩
  · rw [takeInput_size]
    exact h.input_size
  · show (io.bank.audio.input.read s.input.size).2.contents = _
    rw [Ring.contents_read, h.input_size]
  · have hchannels : (s.takeInput io).1.tone.channels = n := by
      show s.settings.outputs.toNat = n
      rw [h.outputs_eq, Int.toNat_natCast]
    have hframes : s.settings.blockFrames.toNat = k := by rw [h.frames_eq, Int.toNat_natCast]
    have hj : f * n + c < k * n := calc
      f * n + c < f * n + n := Nat.add_lt_add_left hc _
      _ = (f + 1) * n := (Nat.succ_mul f n).symm
      _ ≤ k * n := Nat.mul_le_mul_right n hf
    have hwritten := Oscillator.getElem?_frames (s.takeInput io).1.tone k 0 ⟨s.phase, s.block⟩ hf
      (c := c) (by rwa [hchannels]) (by rw [hchannels, Nat.zero_add, h.block_size]; exact hj)
    rw [hchannels, Nat.zero_add] at hwritten
    show (s.mixed io).block[f * n + c]? = _
    rw [mixed, hframes, hwritten]
    refine congrArg some (congrArg₂ (· + ·) (s.tone.level_input _ _ _) ?_)
    exact takeInput_input io s (by rwa [h.input_size])

/-! ### Turns of a performance -/

/-- What is done with an engine while its performance goes on. -/
inductive Turn where
  /-- A block is made, on whatever the others have left in the region and the rings. -/
  | perform (io : Io)
  | call (op : Operation) (args : List Value)
  | drain

/-- The engine after a turn. -/
def after (s : Sine) : Turn → Sine
  | .perform io => (s.perform io).2.1
  | .call op args => (s.call op args).2
  | .drain => s.drain.2

/-- **Every turn keeps the sizes of the blocks.** -/
theorem Monitors.after (h : s.Monitors k n) (hpos : 0 < k * n) (t : Turn) : (s.after t).Monitors k n := by
  cases t with
  | perform io =>
    cases hover : s.isOver with
    | true =>
      rw [Sine.after, perform_over io hover]
      exact h
    | false =>
      obtain ⟨e, left, heq, he, -⟩ := h.perform hpos hover io
      rw [Sine.after, heq]
      exact he
  | call op args => exact h.keeps (call_keeps h.performing op args)
  | drain => exact h.keeps ⟨rfl, rfl, rfl, rfl, rfl⟩

theorem Monitors.run (h : s.Monitors k n) (hpos : 0 < k * n) (turns : List Turn) :
    (turns.foldl Sine.after s).Monitors k n := by
  induction turns generalizing s with
  | nil => exact h
  | cons t turns ih => exact ih (h.after hpos t)

end

/-! ### Frames of the input -/

/-- The places of an output frame lie in the same frame of the input for every frame of a block exactly if
there are as many channels of both, or a single frame, and no more samples than it has. -/
theorem place_iff {k n i len : Nat} (hk : 0 < k) (hn : 0 < n) (hi : 0 < i) (hlen : k * i ≤ len) :
    (len - k * n + k * i = len ∧ ∀ f < k, ∀ c < n, f * n + c < len → (f * n + c) / i = f) ↔
      n = i ∨ (k = 1 ∧ i < n ∧ len = i) := by
  have hmul (a b : Nat) (hab : a < b) : k * a < k * b := Nat.mul_lt_mul_of_pos_left hab hk
  constructor
  · rintro ⟨hconsumed, hframe⟩
    rcases Nat.lt_trichotomy n i with hlt | heq | hgt
    · have := hmul n i hlt
      omega
    · exact .inl heq
    · -- all samples are taken, and the first of the second frame would go to the first
      have hall : len = k * i := by
        have := hmul i n hgt
        omega
      have hsingle : ¬ i < len := fun hlen => by
        have h := hframe 0 hk i hgt (by rwa [Nat.zero_mul, Nat.zero_add])
        rw [Nat.zero_mul, Nat.zero_add, Nat.div_self hi] at h
        exact Nat.one_ne_zero h
      have hk1 : k = 1 := by
        by_contra hne
        have := Nat.mul_le_mul_right i (show 2 ≤ k by omega)
        omega
      subst hk1
      exact .inr ⟨rfl, hgt, by omega⟩
  · rintro (rfl | ⟨rfl, hgt, rfl⟩)
    · refine ⟨Nat.sub_add_cancel hlen, fun f _ c hc _ => ?_⟩
      rw [Nat.mul_comm, Nat.mul_add_div hn, Nat.div_eq_of_lt hc, Nat.add_zero]
    · refine ⟨by omega, fun f hf c _ hlt => ?_⟩
      obtain rfl : f = 0 := Nat.lt_one_iff.1 hf
      rw [Nat.zero_mul, Nat.zero_add] at hlt ⊢
      exact Nat.div_eq_of_lt hlt

end Sine

namespace Render.Loop

variable {ω : Type}

/-- The render loop writes whole cycles into the input ring, in frames of as many samples as it was told that
there are input channels. -/
theorem absorb_frames {l : Loop ω} (hwants : l.params.wantsInput = true)
    (hlength : l.input.length = l.frames * l.inputs) {w : ω} {io : Io}
    (hc : (l.absorb w io).2.crashed = false) :
    ∃ samples c, samples.length = l.frames * l.inputs ∧ (l.absorb w io).2.io = writeInput samples c := by
  rw [absorb, hwants, Bool.not_true, if_neg Bool.false_ne_true] at hc ⊢
  cases hs : l.hooks.source with
  | none => exact ⟨_, _, hlength, rfl⟩
  | some source =>
    rw [hs] at hc
    dsimp only at hc ⊢
    split at hc
    · next hx =>
      rw [hx] at hc
      cases hc
    · next hx =>
      rw [if_neg hx]
      exact ⟨_, _, length_resized _ _, rfl⟩

end Render.Loop

namespace Sine

/-- **Input and output frames line up exactly if there are as many channels of both.**  An engine that asks
for audio input has begun a performance in real time, with `k` frames in a block, `n` output channels and `i`
input channels.

* The render loop writes the input ring in frames of `i` samples.
* After any turns, with whatever the others have left in the rings by then: a block that is made takes `k * n`
  samples from the input ring, and channel `c` of its frame `f` is the sample `f * n + c` of these, if it is
  there, over a level that is the same for any input.
* So of a ring with `k * i` samples or more a block takes that many, and mixes into each of its frames no sample
  but those of the same frame of the input, exactly if `n = i`, or the block is a single frame, for which there
  is a single frame of input with fewer channels. -/
theorem lines_up_iff {s s' : Sine} {io left : Io} {k n i : Nat} (hstart : s.start io = (.ok 0, s', left))
    (hreal : s.output = none) (hwants : s.wantsInput = true) (hframes : s.settings.blockFrames = k)
    (houtputs : s.settings.outputs = n) (hinputs : s.settings.inputs = i) (hk : 0 < k) (hn : 0 < n)
    (hi : 0 < i) (hword : k * n < 2 ^ 31) :
    (∀ (ω : Type) (l : Loop ω) (h : Handle) (w : ω) (io' : Io), l.params = .ofRegion left.region h →
      l.input.length = l.frames * l.inputs → (l.absorb w io').2.crashed = false →
      ∃ samples c, samples.length = l.frames * i ∧ (l.absorb w io').2.io = Loop.writeInput samples c) ∧
    ∀ turns : List Turn, (turns.foldl after s').isOver = false →
      ∃ level : Nat → Float, ∀ now : Io, ∃ e next,
        (turns.foldl after s').perform now = (.ok .more, e, next) ∧
        next.bank.audio.input.contents = now.bank.audio.input.contents.drop (k * n) ∧
        next.bank.audio.output = now.bank.audio.output.write e.block.toList ∧
        (∀ f < k, ∀ c < n, e.block[f * n + c]? =
          some (level f + (now.bank.audio.input.contents[f * n + c]?).getD 0)) ∧
        (k * i ≤ now.bank.audio.input.unread →
          ((next.bank.audio.input.unread + k * i = now.bank.audio.input.unread ∧
            ∀ f < k, ∀ c < n, f * n + c < now.bank.audio.input.unread → (f * n + c) / i = f) ↔
          n = i ∨ (k = 1 ∧ i < n ∧ now.bank.audio.input.unread = i))) := by
  have hpos : 0 < k * n := Nat.mul_pos hk hn
  obtain ⟨hmonitors, rfl⟩ := Monitors.start hstart hreal hwants hframes houtputs hword
  refine ⟨fun ω l h w io' hparams hlength hc => ?_, fun turns hover => ?_⟩
  · have hpublished : (s.publish io.region).get .inputs = i := by
      rw [← hinputs]
      simp [publish, Region.get_set_other]
    have hloop : l.inputs = i := by
      rw [Loop.inputs, hparams]
      show ((s.publish io.region).get .inputs).toNat = i
      rw [hpublished, Int.toNat_natCast]
    have hlistens : l.params.wantsInput = true := by
      rw [hparams]
      show decide (0 < (s.publish io.region).get .inputs) = true
      rw [hpublished, decide_eq_true_eq]
      exact Int.natCast_pos.2 hi
    obtain ⟨samples, c, hsamples, hio⟩ := Loop.absorb_frames hlistens hlength hc
    exact ⟨samples, c, by rw [hsamples, hloop], hio⟩
  · have hnow := hmonitors.run hpos turns
    refine ⟨(turns.foldl after s').tone.level (turns.foldl after s').phase, fun now => ?_⟩
    obtain ⟨e, next, heq, -, htaken, hwritten, hmixed⟩ := hnow.perform hpos hover now
    refine ⟨e, next, heq, htaken, hwritten, hmixed, fun henough => ?_⟩
    have hunread : next.bank.audio.input.unread = now.bank.audio.input.unread - k * n := by
      rw [← Ring.length_contents, htaken, List.length_drop, Ring.length_contents]
    rw [hunread]
    exact place_iff hk hn hi henough

/-- With two input channels and one output channel a block of two frames leaves two of four samples, and its
second frame is mixed with a sample of the first frame of the input. -/
theorem lines_up_iff_mono :
    let s := fresh ⟨{ blockFrames := 2, outputs := 1, inputs := 2 }, []⟩
    let io : Io := ⟨.fresh, .create 16 4⟩
    let now : Io := { io with bank.audio.input := io.bank.audio.input.write [0.25, 0.375, 0.5, 0.75] }
    ∃ s' left, s.start io = (.ok 0, s', left) ∧ now.bank.audio.input.unread = 4 ∧
      ∃ e next, s'.perform now = (.ok .more, e, next) ∧ next.bank.audio.input.unread = 2 ∧
        (∃ x, e.block[1]? = some (x + 0.375)) ∧
        ¬ (next.bank.audio.input.unread + 4 = 4 ∧ ∀ f < 2, ∀ c < 1, f * 1 + c < 4 → (f * 1 + c) / 2 = f) := by
  intro s io now
  obtain ⟨s', hstart, -, hendless⟩ := start_realtime io (s := s) rfl (by decide)
  have hover := isOver_of_endless hendless
  have hcontents : now.bank.audio.input.contents = [0.25, 0.375, 0.5, 0.75] := by
    show ((Ring.create 16 0).write [0.25, 0.375, 0.5, 0.75]).contents = _
    rw [Ring.contents_write (Ring.isSound_create 16 0), Ring.contents_create]
    rfl
  have hunread : now.bank.audio.input.unread = 4 := by rw [← Ring.length_contents, hcontents]; rfl
  obtain ⟨-, hturns⟩ := lines_up_iff (k := 2) (n := 1) (i := 2) hstart rfl rfl rfl rfl rfl (by decide)
    (by decide) (by decide) (by decide)
  obtain ⟨level, hblock⟩ := hturns [] hover
  obtain ⟨e, next, heq, htaken, -, hmixed, hiff⟩ := hblock now
  have hleft : next.bank.audio.input.unread = 2 := by
    rw [← Ring.length_contents, htaken, hcontents]
    rfl
  refine ⟨s', _, hstart, hunread, e, next, heq, hleft, ⟨level 1, ?_⟩, ?_⟩
  · have h := hmixed 1 (by decide) 0 (by decide)
    rw [hcontents] at h
    exact h
  · rw [hunread] at hiff
    rw [hiff (by decide)]
    decide

end Sine
end SynthControl
