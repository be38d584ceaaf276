import SynthControl.Proofs.BlockShape

/-!
# What an engine sounds

The oscillator fills a block frame by frame and carries its phase over to the next block.  Whatever else it goes by
is looked up anew for every block.  As long as nobody changes that, the blocks follow one another without a seam:
how they are cut, and where they go, makes no difference to the sound.

* `Tone.stream`, `Tone.phaseAfter` — the sound of a tone without audio input, and the phase that it ends in;
* `Oscillator.take_frames` — **a block holds the stream of its tone**, wherever the oscillator stood;
* `Sine.made`, `Sine.generated`, `Sine.blocksMade` — the samples of a block and of all blocks, and how many they are;
* `Sine.perform_makes` — **a block goes into the output ring in real time, and else to what is rendered**;
* `Undisturbed`, `Sounds`, `Sounds.run` — turns without operations and without audio input; **they play the stream**;
* `sound_seamless` — **the sound does not depend on the size of the blocks, nor on where they go**.

Operations on floats are not looked into: they are the same functions everywhere.
-/

namespace SynthControl.Sine

/-! ### The stream of a tone -/

namespace Tone

/-- The phase after some frames. -/
def phaseAfter (t : Tone) (phase : Float) : Nat → Float
  | 0 => phase
  | n + 1 => t.phaseAfter (fractional (phase + t.increment)) n

/-- The samples of some frames from a phase on, without audio input: every channel gets the same. -/
def stream (t : Tone) (phase : Float) : Nat → List Float
  | 0 => []
  | n + 1 =>
    List.replicate t.channels (t.entry phase * t.amplitude + 0) ++ t.stream (fractional (phase + t.increment)) n

/-- No audio input is added. -/
def IsDry (t : Tone) : Prop := ∀ i, t.input.getD i 0 = 0

theorem phaseAfter_add (t : Tone) (phase : Float) (a b : Nat) :
    t.phaseAfter phase (a + b) = t.phaseAfter (t.phaseAfter phase a) b := by
  induction a generalizing phase with
  | zero => rw [Nat.zero_add, phaseAfter]
  | succ a ih =>
    rw [Nat.add_right_comm, phaseAfter, phaseAfter]
    exact ih _

/-- **The stream of several frames is that of the first and then that of the rest.** -/
theorem stream_add (t : Tone) (phase : Float) (a b : Nat) :
    t.stream phase (a + b) = t.stream phase a ++ t.stream (t.phaseAfter phase a) b := by
  induction a generalizing phase with
  | zero => rw [Nat.zero_add, stream, phaseAfter, List.nil_append]
  | succ a ih =>
    rw [Nat.add_right_comm, stream, stream, phaseAfter, ih, List.append_assoc]

@[simp] theorem length_stream (t : Tone) (phase : Float) (n : Nat) :
    (t.stream phase n).length = n * t.channels := by
  induction n generalizing phase with
  | zero => rw [stream, List.length_nil, Nat.zero_mul]
  | succ n ih => rw [stream, List.length_append, List.length_replicate, ih, Nat.succ_mul, Nat.add_comm]

/-- A longer stream begins like a shorter one. -/
theorem stream_prefix (t : Tone) (phase : Float) {m n : Nat} (h : m ≤ n) : t.stream phase m <+: t.stream phase n := by
  obtain ⟨k, rfl⟩ := Nat.exists_eq_add_of_le h
  rw [stream_add]
  exact List.prefix_append _ _

/-- Every channel of a frame of the stream has the level of the frame. -/
theorem getElem?_stream (t : Tone) (phase : Float) {n f c : Nat} (hf : f < n) (hc : c < t.channels) :
    (t.stream phase n)[f * t.channels + c]? = some (t.level phase f + 0) := by
  induction n generalizing phase f with
  | zero => exact absurd hf (Nat.not_lt_zero f)
  | succ n ih =>
    rw [stream]
    cases f with
    | zero =>
      rw [Nat.zero_mul, Nat.zero_add, List.getElem?_append_left (by rwa [List.length_replicate]),
        List.getElem?_replicate, if_pos hc]
      rfl
    | succ f =>
      rw [List.getElem?_append_right (by rw [List.length_replicate, Nat.succ_mul]; omega), List.length_replicate,
        show (f + 1) * t.channels + c - t.channels = f * t.channels + c by rw [Nat.succ_mul]; omega]
      exact ih _ (Nat.lt_of_succ_lt_succ hf)

/-- Audio input has no part in the stream. -/
theorem stream_input (t : Tone) (input : Array Float) (phase : Float) (n : Nat) :
    { t with input := input }.stream phase n = t.stream phase n := by
  induction n generalizing phase with
  | zero => rfl
  | succ n ih => exact congrArg (List.replicate t.channels (t.entry phase * t.amplitude + 0) ++ ·) (ih _)

theorem phaseAfter_input (t : Tone) (input : Array Float) (phase : Float) (n : Nat) :
    { t with input := input }.phaseAfter phase n = t.phaseAfter phase n := by
  induction n generalizing phase with
  | zero => rfl
  | succ n ih => exact ih _

end Tone

namespace Oscillator

/-- The phase goes on by the increment with every frame. -/
theorem phase_frames (t : Tone) (n start : Nat) (o : Oscillator) :
    (frames t n start o).phase = t.phaseAfter o.phase n := by
  induction n generalizing start o with
  | zero => rfl
  | succ n ih => exact ih (start + 1) (o.frame t start)

/-- **The frames of a block are the stream of the tone**, whatever was in the block before. -/
theorem take_frames {t : Tone} (hdry : t.IsDry) (n : Nat) (o : Oscillator) (hsize : n * t.channels ≤ o.block.size) :
    (frames t n 0 o).block.toList.take (n * t.channels) = t.stream o.phase n := by
  apply List.ext_getElem?
  intro i
  rcases Nat.lt_or_ge i (n * t.channels) with hi | hi
  · have hchannels : 0 < t.channels := Nat.pos_of_ne_zero fun h => by
      rw [h, Nat.mul_zero] at hi
      exact Nat.not_lt_zero i hi
    have hplace : i / t.channels * t.channels + i % t.channels = i := by
      rw [Nat.mul_comm]
      exact Nat.div_add_mod i t.channels
    have hframe : i / t.channels < n := Nat.div_lt_of_lt_mul (by rwa [Nat.mul_comm] at hi)
    have hchannel : i % t.channels < t.channels := Nat.mod_lt i hchannels
    have hwritten := getElem?_frames t n 0 o hframe hchannel (by rw [Nat.zero_add, hplace]; omega)
    have hstream := t.getElem?_stream o.phase hframe hchannel
    rw [Nat.zero_add, hplace, hdry i] at hwritten
    rw [hplace] at hstream
    rw [List.getElem?_take_of_lt hi, Array.getElem?_toList, hwritten, hstream]
  · rw [List.getElem?_eq_none (by rw [List.length_take]; omega),
      List.getElem?_eq_none (by rwa [Tone.length_stream])]

/-- A block without room for more holds nothing else. -/
theorem toList_frames {t : Tone} (hdry : t.IsDry) (n : Nat) (o : Oscillator) (hsize : o.block.size = n * t.channels) :
    (frames t n 0 o).block.toList = t.stream o.phase n := by
  rw [← take_frames hdry n o (Nat.le_of_eq hsize.symm), List.take_of_length_le]
  rw [Array.length_toList, size_frames, hsize]

end Oscillator

/-! ### The samples of a performance -/

section

variable {s e : Sine} {io left : Io}

/-- The samples of the block that a turn makes, if it makes one. -/
def made (s : Sine) : Turn → List Float
  | .perform io =>
    match s.perform io with
    | (.ok .more, e, _) => e.block.toList
    | _ => []
  | .call _ _ | .drain => []

/-- The samples that turns generate, block after block. -/
def generated (s : Sine) : List Turn → List Float
  | [] => []
  | t :: ts => s.made t ++ (s.after t).generated ts

/-- A turn makes a block. -/
def makesBlock (s : Sine) : Turn → Bool
  | .perform _ => !s.isOver
  | .call _ _ | .drain => false

/-- The number of blocks that turns make. -/
def blocksMade (s : Sine) : List Turn → Nat
  | [] => 0
  | t :: ts => (s.makesBlock t).toNat + (s.after t).blocksMade ts

/-- The engine with what a block takes from the input ring. -/
def fed (io : Io) (s : Sine) : Sine × Io :=
  if s.mode = .realtime ∧ s.input.size ≠ 0 then s.takeInput io else (s, io)

/-- The oscillator after it has filled a block. -/
def sounded (io : Io) (s : Sine) : Oscillator :=
  .frames (s.fed io).1.tone s.settings.blockFrames.toNat 0 ⟨s.phase, s.block⟩

theorem fed_aside (io : Io) (s : Sine) :
    (s.fed io).1.mode = s.mode ∧ (s.fed io).1.rendered = s.rendered ∧
      (s.fed io).2.bank.audio.output = io.bank.audio.output := by
  rw [fed]
  split <;> exact ⟨rfl, rfl, rfl⟩

/-- Offline nothing is taken from the input ring. -/
theorem fed_offline (io : Io) (h : s.mode = .offline) : s.fed io = (s, io) := by
  rw [fed, h]
  exact if_neg fun h => nomatch h.1

theorem perform_eq_filled (io : Io) (hover : s.isOver = false) :
    s.perform io = (s.fed io).1.filled s.settings.blockFrames.toNat (s.sounded io) (s.fed io).2 := by
  rw [perform, if_neg (by rw [hover]; decide), sounded, fed]
  by_cases hinput : s.mode = .realtime ∧ s.input.size ≠ 0
  · rw [if_pos hinput]
    rfl
  · rw [if_neg hinput]
    rfl

/-- **A block is made by the oscillator, and goes into the output ring in real time, and else to what is
rendered.** -/
theorem perform_makes (io : Io) (hover : s.isOver = false) :
    ∃ e left, s.perform io = (.ok .more, e, left) ∧ e.phase = (s.sounded io).phase ∧
      e.block = (s.sounded io).block ∧ e.tone = (s.fed io).1.tone ∧
      (s.mode = .realtime →
        left.bank.audio.output = io.bank.audio.output.write e.block.toList ∧ e.rendered = s.rendered) ∧
      (s.mode = .offline → left = io ∧ e.rendered = s.rendered ++ e.block.map Float.toFloat32) := by
  obtain ⟨hmode, hrendered, houtput⟩ := s.fed_aside io
  rw [perform_eq_filled io hover, filled]
  cases hm : s.mode with
  | realtime =>
    simp only [hmode, hm]
    exact ⟨_, _, rfl, rfl, rfl, rfl, fun _ => ⟨by rw [houtput], hrendered⟩, nofun⟩
  | offline =>
    simp only [hmode, hm]
    refine ⟨_, _, rfl, rfl, rfl, rfl, nofun, fun _ => ⟨?_, ?_⟩⟩
    · rw [fed_offline io hm]
    · rw [hrendered]

theorem made_of_more (h : s.perform io = (.ok .more, e, left)) : s.made (.perform io) = e.block.toList := by
  rw [made, h]

theorem made_of_over (io : Io) (h : s.isOver = true) : s.made (.perform io) = [] := by
  rw [made, perform_over io h]

end

/-! ### Turns without operations and without audio input -/

/-- Turns without operations, in which a performance that is begun on `s` gets no audio input: the engine does not
ask for it, or does not read it because it renders, or finds none in the ring. -/
structure Undisturbed (s : Sine) (turns : List Turn) : Prop where
  noCall : ∀ op args, Turn.call op args ∉ turns
  noInput : s.wantsInput = false ∨ s.output.isSome = true ∨
    ∀ io, Turn.perform io ∈ turns → io.bank.audio.input.unread = 0

/-- A performance that was begun on `s₁` has played `n` frames of its stream. -/
structure Sounds (s₁ : Sine) (n : Nat) (s : Sine) : Prop where
  shaped : Shaped s₁ s
  dry : s.tone.IsDry
  tone_eq : s.tone = { s₁.tone with input := s.input }
  phase_eq : s.phase = s₁.tone.phaseAfter s₁.phase n
  unheard : s₁.wantsInput = false → s.input.size = 0

section

variable {s₁ s e : Sine} {io left : Io} {n : Nat}

/-- Where there is no input to take, none is added. -/
theorem fed_dry (hdry : s.tone.IsDry)
    (hquiet : s.input.size = 0 ∨ s.mode = .offline ∨ io.bank.audio.input.unread = 0) :
    (s.fed io).1.tone.IsDry := by
  rw [fed]
  split
  · next htakes =>
    have hnone : io.bank.audio.input.contents = [] := by
      rcases hquiet with h | h | h
      · exact absurd h htakes.2
      · exact nomatch htakes.1.symm.trans h
      · exact List.eq_nil_of_length_eq_zero ((Ring.length_contents _).trans h)
    intro j
    show (s.takeInput io).1.input.getD j 0 = 0
    rcases Nat.lt_or_ge j s.input.size with hj | hj
    · rw [takeInput_input io s hj, hnone]
      rfl
    · rw [Array.getD_eq_getD_getElem?, Array.getElem?_eq_none (by rwa [takeInput_size])]
      rfl
  · exact hdry

theorem fed_input_size (io : Io) (s : Sine) : (s.fed io).1.input.size = s.input.size := by
  rw [fed]
  split
  · exact takeInput_size io s
  · rfl

theorem tone_fed (io : Io) (s : Sine) : (s.fed io).1.tone = { s.tone with input := (s.fed io).1.input } := by
  rw [fed]
  split <;> rfl

/-- A start that is accepted begins at the phase at which the engine stands. -/
theorem Sounds.start (h : s.start io = (.ok 0, e, left)) : Sounds s 0 e := by
  have hshaped := Shaped.start h
  rw [Sine.start] at h
  dsimp only at h
  split at h
  · cases h
  · cases h
    refine ⟨hshaped, fun i => ?_, rfl, rfl, fun hnone => ?_⟩
    · show (if s.wantsInput = true then Array.replicate s.blockSamples (0 : Float) else #[]).getD i 0 = 0
      rw [Array.getD_eq_getD_getElem?]
      split
      · rw [Array.getElem?_replicate]
        split <;> rfl
      · rfl
    · show (if s.wantsInput = true then Array.replicate s.blockSamples (0 : Float) else #[]).size = 0
      rw [hnone]
      rfl

/-- The frames of a turn: those of its block, or none. -/
def framesOf (s : Sine) (t : Turn) : Nat := if s.makesBlock t then s.settings.blockFrames.toNat else 0

/-- **A turn plays the next frames of the stream.** -/
theorem Sounds.turn (h : Sounds s₁ n s) (hsize : s₁.blockSamples = s₁.settings.blockFrames.toNat * s₁.tone.channels)
    {t : Turn} (hcall : ∀ op args, t ≠ .call op args)
    (hquiet : s₁.wantsInput = false ∨ s₁.output.isSome = true ∨
      ∀ io, t = .perform io → io.bank.audio.input.unread = 0) :
    s.made t = s₁.tone.stream (s₁.tone.phaseAfter s₁.phase n) (s.framesOf t) ∧
      Sounds s₁ (n + s.framesOf t) (s.after t) := by
  cases t with
  | call op args => exact absurd rfl (hcall op args)
  | drain => exact ⟨rfl, h.shaped.tends (.drains s), h.dry, h.tone_eq, h.phase_eq, h.unheard⟩
  | perform io =>
    have hafter : s.after (.perform io) = (s.perform io).2.1 := rfl
    cases hover : s.isOver with
    | true =>
      have hnone : s.framesOf (.perform io) = 0 := by rw [framesOf, makesBlock, hover]; rfl
      rw [made_of_over io hover, hnone, hafter, perform_over io hover]
      exact ⟨rfl, h⟩
    | false =>
      have hframes : s.framesOf (.perform io) = s₁.settings.blockFrames.toNat := by
        rw [framesOf, makesBlock, hover, h.shaped.settings_eq]
        rfl
      have hsilent : s.input.size = 0 ∨ s.mode = .offline ∨ io.bank.audio.input.unread = 0 := by
        rcases hquiet with hw | ho | hn
        · exact .inl (h.unheard hw)
        · exact .inr (.inl (by rw [h.shaped.mode_eq, modeToBe, if_pos ho]))
        · exact .inr (.inr (hn io rfl))
      have hdry := fed_dry h.dry hsilent
      have htone : (s.fed io).1.tone = { s₁.tone with input := (s.fed io).1.input } := by
        rw [tone_fed, h.tone_eq]
      obtain ⟨e, left, hperform, hphase, hblock, htone', -, -⟩ := perform_makes io hover
      have hstream : (s.sounded io).block.toList =
          s₁.tone.stream (s₁.tone.phaseAfter s₁.phase n) s₁.settings.blockFrames.toNat := by
        rw [sounded, Oscillator.toList_frames hdry, htone, Tone.stream_input, h.shaped.settings_eq, h.phase_eq]
        rw [htone, h.shaped.block_size, hsize, h.shaped.settings_eq]
      have hinput : e.input = (s.fed io).1.input := congrArg Tone.input htone'
      have hshaped := h.shaped.tends (.performs hperform)
      rw [made_of_more hperform, hblock, hframes, hafter, hperform]
      refine ⟨hstream, hshaped, htone' ▸ hdry, ?_, ?_, fun hw => ?_⟩
      · rw [htone', htone, hinput]
      · rw [hphase, sounded, Oscillator.phase_frames, htone, Tone.phaseAfter_input, h.phase_eq,
          h.shaped.settings_eq, Tone.phaseAfter_add]
      · rw [hinput, fed_input_size, h.unheard hw]

theorem Undisturbed.cons {t : Turn} {turns : List Turn} (h : Undisturbed s (t :: turns)) :
    (∀ op args, t ≠ .call op args) ∧
      (s.wantsInput = false ∨ s.output.isSome = true ∨ ∀ io, t = .perform io → io.bank.audio.input.unread = 0) ∧
      Undisturbed s turns := by
  obtain ⟨hcall, hinput⟩ := h
  refine ⟨fun op args ht => hcall op args (ht ▸ List.mem_cons_self), ?_,
    fun op args hm => hcall op args (List.mem_cons_of_mem t hm), ?_⟩
  · exact hinput.imp id (.imp id fun h io ht => h io (ht ▸ List.mem_cons_self))
  · exact hinput.imp id (.imp id fun h io hm => h io (List.mem_cons_of_mem t hm))

/-- **Turns play the next frames of the stream**, as many as their blocks have. -/
theorem Sounds.run (hsize : s₁.blockSamples = s₁.settings.blockFrames.toNat * s₁.tone.channels) (h : Sounds s₁ n s)
    {turns : List Turn} (hu : Undisturbed s₁ turns) :
    s.generated turns = s₁.tone.stream (s₁.tone.phaseAfter s₁.phase n)
        (s.blocksMade turns * s₁.settings.blockFrames.toNat) ∧
      Sounds s₁ (n + s.blocksMade turns * s₁.settings.blockFrames.toNat) (turns.foldl after s) := by
  induction turns generalizing s n with
  | nil =>
    rw [blocksMade, Nat.zero_mul]
    exact ⟨rfl, h⟩
  | cons t turns ih =>
    obtain ⟨hcall, hquiet, hrest⟩ := hu.cons
    obtain ⟨hmade, hafter⟩ := h.turn hsize hcall hquiet
    obtain ⟨hgenerated, hsounds⟩ := ih hafter hrest
    have hframes : s.framesOf t = (s.makesBlock t).toNat * s₁.settings.blockFrames.toNat := by
      rw [framesOf, h.shaped.settings_eq]
      cases s.makesBlock t
      · exact (Nat.zero_mul _).symm
      · exact (Nat.one_mul _).symm
    have hcount : s.framesOf t + (s.after t).blocksMade turns * s₁.settings.blockFrames.toNat =
        s.blocksMade (t :: turns) * s₁.settings.blockFrames.toNat := by
      rw [blocksMade, Nat.add_mul, hframes]
    refine ⟨?_, ?_⟩
    · rw [generated, hmade, hgenerated, ← hcount, Tone.stream_add, Tone.phaseAfter_add]
    · rw [← hcount, ← Nat.add_assoc]
      exact hsounds

end

/-! ### What is rendered -/

/-- Nothing more was rendered. -/
def RendersAlike (s s' : Sine) : Prop := s'.rendered = s.rendered

section

variable (s : Sine) (args : List Value)

/-- An operation leaves alone what is rendered. -/
theorem call_rendered (op : Operation) : s.RendersAlike (s.call op args).2 := by
  by_cases hwrite : op = .writeFile
  · subst hwrite
    exact Leaves.call (.look (fun _ _ => rfl) fun _ _ => .look (fun _ _ => rfl) fun _ _ => rfl)
  · by_cases hremove : op = .removeFiles
    · subst hremove
      exact Leaves.call (.look (fun _ _ => rfl) fun _ _ => rfl)
    · exact (call_spares s args hwrite hremove).rendered_eq

end

section

variable {s₁ s : Sine}

/-- A turn of a performance keeps the shape of its blocks. -/
theorem Shaped.after (h : Shaped s₁ s) (t : Turn) : Shaped s₁ (s.after t) := by
  cases t with
  | perform io => exact h.tends (.performs rfl)
  | call op args => exact h.tends (.calls op args s)
  | drain => exact h.tends (.drains s)

theorem Shaped.run (h : Shaped s₁ s) (turns : List Turn) : Shaped s₁ (turns.foldl Sine.after s) := by
  induction turns generalizing s with
  | nil => exact h
  | cons t turns ih => exact ih (h.after t)

/-- **What is rendered are the samples that were generated, narrowed**, whatever operations come in between. -/
theorem rendered_run (h : Shaped s₁ s) (hoffline : s₁.output.isSome = true) (turns : List Turn) :
    (turns.foldl Sine.after s).rendered.toList =
      s.rendered.toList ++ (s.generated turns).map Float.toFloat32 := by
  induction turns generalizing s with
  | nil => exact (List.append_nil _).symm
  | cons t turns ih =>
    have hmode : s.mode = .offline := by rw [h.mode_eq, modeToBe, if_pos hoffline]
    have hturn : (s.after t).rendered.toList = s.rendered.toList ++ (s.made t).map Float.toFloat32 := by
      cases t with
      | call op args =>
        have hcall : (s.call op args).2.rendered = s.rendered := call_rendered s args op
        show (s.call op args).2.rendered.toList = s.rendered.toList ++ []
        rw [hcall, List.append_nil]
      | drain => exact (List.append_nil _).symm
      | perform io =>
        show (s.perform io).2.1.rendered.toList = _
        cases hover : s.isOver with
        | true => rw [made_of_over io hover, perform_over io hover, List.map_nil, List.append_nil]
        | false =>
          obtain ⟨e, left, hperform, -, -, -, -, hrendered⟩ := perform_makes io hover
          rw [made_of_more hperform, hperform, (hrendered hmode).2, Array.toList_append, Array.toList_map]
    rw [List.foldl_cons, ih (h.after t), hturn, generated, List.map_append, List.append_assoc]

/-- A start that is accepted has rendered nothing yet. -/
theorem start_rendered {io left : Io} (h : s₁.start io = (.ok 0, s, left)) : s.rendered = #[] := by
  rw [Sine.start] at h
  dsimp only at h
  split at h
  · cases h
  · cases h
    rfl

/-- A block that is made in real time goes into the output ring as it is. -/
theorem perform_writes (hmode : s.mode = .realtime) (io : Io) :
    (s.perform io).2.2.bank.audio.output = io.bank.audio.output.write (s.made (.perform io)) := by
  cases hover : s.isOver with
  | true =>
    rw [made_of_over io hover, perform_over io hover]
    rfl
  | false =>
    obtain ⟨e, left, hperform, -, -, -, hwritten, -⟩ := perform_makes io hover
    rw [made_of_more hperform, hperform, (hwritten hmode).1]

/-- A block that is rendered leaves region and rings alone. -/
theorem perform_offline (hmode : s.mode = .offline) (io : Io) : (s.perform io).2.2 = io := by
  cases hover : s.isOver with
  | true => rw [perform_over io hover]
  | false =>
    obtain ⟨e, left, hperform, -, -, -, -, hrendered⟩ := perform_makes io hover
    rw [hperform, (hrendered hmode).1]

end

/-! ### Seamless sound -/

/-- The samples in a block, if there are no fewer than no frames and channels, and their product is a word. -/
theorem blockSamples_eq_mul {s : Sine} (hframes : 0 ≤ s.settings.blockFrames) (houtputs : 0 ≤ s.settings.outputs)
    (hword : s.settings.blockFrames * s.settings.outputs < 2 ^ 31) :
    s.blockSamples = s.settings.blockFrames.toNat * s.tone.channels := by
  rw [blockSamples_eq_toNat (Int.mul_nonneg hframes houtputs) hword, Int.toNat_mul hframes houtputs]
  rfl

/-- **Sound is seamless**: it does not depend on the size of the blocks, nor on where they go.

* The oscillator writes the same samples for `a + b` frames as for `a` frames and then for `b`, in blocks of their
  own, and ends in the same phase.
* Two performances begin on the same engine, but for the frames of a block and the output.  Each has any turns, with
  whatever the others leave in region and rings by then, but no operation and no audio input in between.  Then they
  generate the same samples for as many frames as both of them play, and after as many frames they have the same
  phase.
* In real time every block is written into the output ring as it is.  Offline the narrowed samples are what is
  rendered, so that after as many frames it is what was written in real time, narrowed. -/
theorem sound_seamless (s : Sine) (houtputs : 0 ≤ s.settings.outputs) :
    (s.tone.IsDry → ∀ (a b : Nat) (whole first second : Array Float), (a + b) * s.tone.channels ≤ whole.size →
      a * s.tone.channels ≤ first.size → b * s.tone.channels ≤ second.size →
      let o := Oscillator.frames s.tone (a + b) 0 ⟨s.phase, whole⟩
      let o₁ := Oscillator.frames s.tone a 0 ⟨s.phase, first⟩
      let o₂ := Oscillator.frames s.tone b 0 ⟨o₁.phase, second⟩
      o.block.toList.take ((a + b) * s.tone.channels) =
          o₁.block.toList.take (a * s.tone.channels) ++ o₂.block.toList.take (b * s.tone.channels) ∧
        o.phase = o₂.phase) ∧
    ∀ (k₁ k₂ : Int) (to₁ to₂ : Option String), 0 ≤ k₁ → 0 ≤ k₂ → k₁ * s.settings.outputs < 2 ^ 31 →
      k₂ * s.settings.outputs < 2 ^ 31 →
      let s₁ : Sine := { s with settings := { s.settings with blockFrames := k₁ }, output := to₁ }
      let s₂ : Sine := { s with settings := { s.settings with blockFrames := k₂ }, output := to₂ }
      ∀ (io₁ io₂ left₁ left₂ : Io) (e₁ e₂ : Sine) (turns₁ turns₂ : List Turn),
        s₁.start io₁ = (.ok 0, e₁, left₁) → s₂.start io₂ = (.ok 0, e₂, left₂) →
        Undisturbed s₁ turns₁ → Undisturbed s₂ turns₂ →
        let frames₁ := e₁.blocksMade turns₁ * k₁.toNat
        let frames₂ := e₂.blocksMade turns₂ * k₂.toNat
        let sound₁ := e₁.generated turns₁
        let sound₂ := e₂.generated turns₂
        (sound₁.length = frames₁ * s.tone.channels ∧ sound₂.length = frames₂ * s.tone.channels) ∧
        (∀ n, n ≤ frames₁ → n ≤ frames₂ →
          sound₁.take (n * s.tone.channels) = sound₂.take (n * s.tone.channels)) ∧
        (frames₁ = frames₂ → (turns₁.foldl after e₁).phase = (turns₂.foldl after e₂).phase) ∧
        (to₁ = none → ∀ before io rest, turns₁ = before ++ .perform io :: rest →
          let now := before.foldl after e₁
          (now.perform io).2.2.bank.audio.output = io.bank.audio.output.write (now.made (.perform io))) ∧
        (to₂.isSome = true → (turns₂.foldl after e₂).rendered.toList = sound₂.map Float.toFloat32 ∧
          (frames₁ = frames₂ → (turns₂.foldl after e₂).rendered.toList = sound₁.map Float.toFloat32)) := by
  refine ⟨fun hdry a b whole first second hwhole hfirst hsecond => ?_, ?_⟩
  · intro o o₁ o₂
    have hphase : o₁.phase = s.tone.phaseAfter s.phase a := Oscillator.phase_frames _ _ _ _
    refine ⟨?_, ?_⟩
    · rw [Oscillator.take_frames hdry _ _ hwhole, Oscillator.take_frames hdry _ _ hfirst,
        Oscillator.take_frames hdry _ _ hsecond, Tone.stream_add, hphase]
    · rw [Oscillator.phase_frames, Oscillator.phase_frames, Tone.phaseAfter_add, hphase]
  · intro k₁ k₂ to₁ to₂ hk₁ hk₂ hword₁ hword₂ s₁ s₂ io₁ io₂ left₁ left₂ e₁ e₂ turns₁ turns₂ hstart₁ hstart₂ hu₁ hu₂
      frames₁ frames₂ sound₁ sound₂
    -- both performances play the stream of the one tone
    obtain ⟨hsound₁, hsounds₁⟩ := (Sounds.start hstart₁).run (blockSamples_eq_mul (s := s₁) hk₁ houtputs hword₁) hu₁
    obtain ⟨hsound₂, hsounds₂⟩ := (Sounds.start hstart₂).run (blockSamples_eq_mul (s := s₂) hk₂ houtputs hword₂) hu₂
    have heq₁ : sound₁ = s.tone.stream s.phase frames₁ := hsound₁
    have heq₂ : sound₂ = s.tone.stream s.phase frames₂ := hsound₂
    have htake (n frames : Nat) (hn : n ≤ frames) :
        (s.tone.stream s.phase frames).take (n * s.tone.channels) = s.tone.stream s.phase n := by
      rw [← Tone.length_stream s.tone s.phase n]
      exact (List.prefix_iff_eq_take.1 (s.tone.stream_prefix s.phase hn)).symm
    refine ⟨⟨by rw [heq₁, Tone.length_stream], by rw [heq₂, Tone.length_stream]⟩, fun n hn₁ hn₂ => ?_, fun h => ?_,
      fun hreal before io rest _ => ?_, fun hoffline => ?_⟩
    · rw [heq₁, heq₂, htake n _ hn₁, htake n _ hn₂]
    · have hphase₁ : (turns₁.foldl after e₁).phase = s.tone.phaseAfter s.phase (0 + frames₁) := hsounds₁.phase_eq
      have hphase₂ : (turns₂.foldl after e₂).phase = s.tone.phaseAfter s.phase (0 + frames₂) := hsounds₂.phase_eq
      rw [hphase₁, hphase₂, h]
    · refine perform_writes ?_ io
      rw [((Shaped.start hstart₁).run before).mode_eq, modeToBe, if_neg]
      show ¬ to₁.isSome = true
      rw [hreal]
      decide
    · have hempty : e₂.rendered = #[] := start_rendered hstart₂
      have hrendered : (turns₂.foldl after e₂).rendered.toList = sound₂.map Float.toFloat32 := by
        rw [rendered_run (Shaped.start hstart₂) hoffline, hempty]
        rfl
      refine ⟨hrendered, fun h => ?_⟩
      rw [hrendered, heq₁, heq₂, h]

/-- Three blocks of two frames in real time and two of three frames offline: six frames, and the same sound. -/
theorem sound_seamless_six :
    let s := fresh ⟨{ outputs := 1 }, []⟩
    let s₁ : Sine := { s with settings := { s.settings with blockFrames := 2 }, output := none }
    let s₂ : Sine := { s with settings := { s.settings with blockFrames := 3 }, output := some "out.wav" }
    let io : Io := ⟨.fresh, .create 16 4⟩
    let turns₁ : List Turn := [.perform io, .drain, .perform io, .perform io]
    let turns₂ : List Turn := [.perform io, .perform io]
    ∃ e₁ e₂ left₁ left₂, s₁.start io = (.ok 0, e₁, left₁) ∧ s₂.start io = (.ok 0, e₂, left₂) ∧
      (Oscillator.frames s.tone 5 0 ⟨s.phase, .replicate 5 0⟩).phase =
        (Oscillator.frames s.tone 3 0
          ⟨(Oscillator.frames s.tone 2 0 ⟨s.phase, .replicate 2 0⟩).phase, .replicate 3 0⟩).phase ∧
      (e₁.generated turns₁).length = 6 ∧ (e₁.generated turns₁).take 5 = (e₂.generated turns₂).take 5 ∧
      (turns₂.foldl after e₂).rendered.toList = (e₁.generated turns₁).map Float.toFloat32 := by
  intro s s₁ s₂ io turns₁ turns₂
  obtain ⟨e₁, left₁, hstart₁, hframes₁⟩ : ∃ e left, s₁.start io = (.ok 0, e, left) ∧
      e.blocksMade turns₁ * (2 : Int).toNat = 6 := ⟨_, _, rfl, rfl⟩
  obtain ⟨e₂, left₂, hstart₂, hframes₂⟩ : ∃ e left, s₂.start io = (.ok 0, e, left) ∧
      e.blocksMade turns₂ * (3 : Int).toNat = 6 := ⟨_, _, rfl, rfl⟩
  have hu₁ : Undisturbed s₁ turns₁ := ⟨fun op args h => by simp [turns₁] at h, .inl rfl⟩
  have hu₂ : Undisturbed s₂ turns₂ := ⟨fun op args h => by simp [turns₂] at h, .inl rfl⟩
  obtain ⟨hsplit, hboth⟩ := sound_seamless s (by decide)
  obtain ⟨-, hphase⟩ := hsplit (fun _ => rfl) 2 3 (.replicate 5 0) (.replicate 2 0) (.replicate 3 0) (by decide)
    (by decide) (by decide)
  obtain ⟨⟨hlength, -⟩, hcommon, -, -, hrendered⟩ := hboth 2 3 none (some "out.wav") (by decide) (by decide)
    (by decide) (by decide) io io left₁ left₂ e₁ e₂ turns₁ turns₂ hstart₁ hstart₂ hu₁ hu₂
  rw [hframes₁, hframes₂] at hcommon
  rw [hframes₁] at hlength
  exact ⟨e₁, e₂, left₁, left₂, hstart₁, hstart₂, hphase, hlength, hcommon 5 (by decide) (by decide),
    (hrendered rfl).2 (by rw [hframes₁, hframes₂])⟩

end SynthControl.Sine
