import SynthControl.Proofs.Handling
import SynthControl.Proofs.Monitoring

/-!
# The shape of a block

A start sizes the blocks of the engine by its settings, and options that come later must not change what the blocks
were sized by.  Options come with requests, in documents and with a setup.

* `Change.IsPositive`, `read_isPositive` — an option that is accepted leaves the settings positive;
* `Tweak`, `call_tweaks` — **an operation applies options and does other things that have no part in the blocks**;
* `SameSetup` — an engine keeps its settings, its setup and whether it asks for audio input;
* `IsSane`, `IsSane.handles` — positive settings, now and after a reset; **everything keeps them so**;
* `Shaped`, `Shaped.tends` — the setup of a performance and the sizes of its blocks; **everything keeps them until
  its end**;
* `perform?` — a block is made, unless a place outside of a block or table is asked for;
* `Shaped.perform?_eq` — **none is**;
* `Bench.shape_fixed` — **whatever the worker is given**.
-/

namespace SynthControl

open Relation

/-- Frames per second, frames per block and output channels are positive. -/
structure Settings.IsPositive (t : Settings) : Prop where
  sampleRate : 0 < t.sampleRate
  blockFrames : 0 < t.blockFrames
  outputs : 0 < t.outputs

namespace Sine

/-! ### Options -/

/-- A positive parameter gets a positive value. -/
def Change.IsPositive : Change → Prop
  | .quantity _ n => 0 < n
  | _ => True

theorem readPositive_isPositive {what : Quantity} {v : List Char} {c : Change} (h : readPositive what v = .ok c) :
    c.IsPositive := by
  rw [readPositive] at h
  split at h
  · split at h
    · next hn =>
      cases h
      exact hn
    · cases h
  · cases h

theorem readInputs_isPositive {v : List Char} {c : Change} (h : readInputs v = .ok c) : c.IsPositive := by
  rw [readInputs] at h
  split at h <;> cases h
  trivial

theorem readOutput_isPositive {v : List Char} {c : Change} (h : readOutput v = .ok c) : c.IsPositive := by
  rw [readOutput] at h
  split at h <;> cases h
  trivial

theorem readDuration_isPositive {v : List Char} {c : Change} (h : readDuration v = .ok c) : c.IsPositive := by
  rw [readDuration] at h
  split at h
  · cases h
  · split at h <;> cases h
    trivial

/-- A form whose parameters are read so. -/
def Form.IsPositive : Form → Prop
  | .takes _ read => ∀ v c, read v = .ok c → c.IsPositive
  | .plain _ c | .ignores _ c => c.IsPositive

theorem forms_isPositive : ∀ f ∈ forms, f.IsPositive := by
  have hpositive (what : Quantity) (lead : String) : (Form.takes lead (readPositive what)).IsPositive :=
    fun _ _ => readPositive_isPositive
  simp only [forms, List.forall_mem_cons, List.not_mem_nil, false_implies, implies_true, and_true]
  refine ⟨hpositive _ _, hpositive _ _, hpositive _ _, hpositive _ _, fun _ _ => readInputs_isPositive,
    hpositive _ _, hpositive _ _, hpositive _ _, trivial, fun _ _ => readOutput_isPositive,
    fun _ _ => readOutput_isPositive, trivial, trivial, fun _ _ => readDuration_isPositive⟩

theorem Form.read?_isPositive {f : Form} (hf : f.IsPositive) {option : List Char} {c : Change}
    (h : f.read? option = some (.ok c)) : c.IsPositive := by
  cases f with
  | takes lead read =>
    obtain ⟨v, -, hv⟩ := Option.map_eq_some_iff.1 h
    exact hf v c hv
  | plain text change =>
    rw [Form.read?] at h
    split at h <;> cases h
    exact hf
  | ignores lead change =>
    obtain ⟨v, -, hv⟩ := Option.map_eq_some_iff.1 h
    cases hv
    exact hf

/-- **An option sets a positive parameter to a positive value**, or is refused. -/
theorem read_isPositive {option : List Char} {c : Change} (h : Change.read option = .ok c) : c.IsPositive := by
  rw [Change.read] at h
  cases hf : forms.findSome? (Form.read? option) with
  | none =>
    rw [hf] at h
    cases h
  | some r =>
    rw [hf] at h
    obtain rfl : r = .ok c := h
    obtain ⟨f, hmem, hread⟩ := List.exists_of_findSome?_eq_some hf
    exact Form.read?_isPositive (forms_isPositive f hmem) hread

theorem apply_isPositive {s : Sine} {c : Change} (hc : c.IsPositive) (hs : s.settings.IsPositive) :
    (s.apply c).settings.IsPositive := by
  obtain ⟨hrate, hframes, houtputs⟩ := hs
  cases c with
  | quantity what n =>
    cases what with
    | sampleRate => exact ⟨hc, hframes, houtputs⟩
    | blockFrames => exact ⟨hrate, hc, houtputs⟩
    | outputs => exact ⟨hrate, hframes, hc⟩
    | hardwareFrames | softwareFrames => exact ⟨hrate, hframes, houtputs⟩
  | inputs n | realtime | output path | audioInput | midi | duration x => exact ⟨hrate, hframes, houtputs⟩

/-! ### What an operation does to an engine -/

/-- One of the things that an operation may do. -/
inductive Tweak (s : Sine) : Sine → Prop where
  /-- An option is applied, during a performance one for the duration. -/
  | option {c : Change} (hc : c.IsPositive) (hd : s.performing = true → ∃ x, c = .duration x) : Tweak s (s.apply c)
  | aside {s' : Sine} (h : s.Aside s') : Tweak s s'

section

variable {s s' : Sine}

theorem readOption_isPositive {option : String} {c : Change} (h : s.readOption option = .ok c) : c.IsPositive := by
  rw [readOption] at h
  split at h
  · cases h
  · exact read_isPositive h

theorem Tweak.of_setOption? {option : String} (h : s.setOption? option = .ok s') : Tweak s s' := by
  obtain ⟨c, hread, rfl⟩ := setOption?_eq_ok_iff.1 h
  exact .option (readOption_isPositive hread) fun hp => readOption_duration hp hread

theorem setOptions_tweaks (s : Sine) (options : List String) : ReflTransGen Tweak s (s.setOptions options).1 := by
  induction options generalizing s with
  | nil => exact .refl
  | cons option options ih =>
    rw [setOptions]
    split
    · next s' h => exact .head (.of_setOption? h) (ih s')
    · exact .refl

/-- **An operation applies options, and does other things that have no part in the blocks.** -/
theorem call_tweaks (s : Sine) (op : Operation) (args : List Value) : ReflTransGen Tweak s (s.call op args).2 :=
  (setOptions_tweaks s (optionsIn args op)).tail (.aside (call_aside s args op))

end

/-! ### Positive settings -/

/-- An engine keeps its settings and its setup, and whether it asks for audio input. -/
structure SameSetup (s s' : Sine) : Prop where
  settings_eq : s'.settings = s.settings
  origin_eq : s'.origin = s.origin
  wantsInput_eq : s'.wantsInput = s.wantsInput

/-- The settings are positive, and those that a reset returns to. -/
structure IsSane (s : Sine) : Prop where
  settings : s.settings.IsPositive
  origin : s.origin.settings.IsPositive

section

variable {s s' : Sine}

theorem IsSane.congr (h : s.IsSane) (hs : s.SameSetup s') : s'.IsSane :=
  ⟨hs.settings_eq ▸ h.settings, hs.origin_eq ▸ h.origin⟩

theorem IsSane.tweak (h : s.IsSane) (ht : Tweak s s') : s'.IsSane := by
  cases ht with
  | @option c hc _ =>
    have horigin : (s.apply c).origin = s.origin := by cases c <;> rfl
    exact ⟨apply_isPositive hc h.settings, horigin ▸ h.origin⟩
  | aside ha => exact ⟨ha.keeps.settings_eq ▸ h.settings, ha.origin_eq ▸ h.origin⟩

theorem IsSane.tweaks (h : s.IsSane) (ht : ReflTransGen Tweak s s') : s'.IsSane :=
  kept_of_reflTransGen (R := Tweak) (P := IsSane) (fun _ _ ht h => h.tweak ht) ht h

/-- An engine that is built of positive settings has such settings. -/
theorem IsSane.build {setup : Setup} (h : build? setup = .ok s) (hp : setup.settings.IsPositive) : s.IsSane := by
  rw [build?] at h
  have hfresh : (fresh setup).IsSane := ⟨hp, hp⟩
  have hbuilt := hfresh.tweaks (setOptions_tweaks (fresh setup) setup.options)
  split at h
  · next heq =>
    cases h
    rwa [heq] at hbuilt
  · cases h

/-- What is done beside the options has no part in the setup. -/
theorem Beside.sameSetup (h : s.Beside s') : s.SameSetup s' :=
  ⟨h.aside.keeps.settings_eq, h.aside.origin_eq, h.wantsInput_eq⟩

theorem start_sameSetup (io : Io) (s : Sine) : s.SameSetup (s.start io).2.1 := by
  rw [start]
  dsimp only
  split <;> exact ⟨rfl, rfl, rfl⟩

/-- What a block changes of an engine. -/
structure Filled (s s' : Sine) : Prop where
  aside : s'.settings = s.settings ∧ s'.origin = s.origin ∧ s'.output = s.output ∧ s'.mode = s.mode ∧
    s'.performing = s.performing
  block_size : s'.block.size = s.block.size
  input_size : s'.input.size = s.input.size

/-- **A block keeps the sizes of the blocks**, and what they were sized by. -/
theorem perform_filled (io : Io) (s : Sine) : Filled s (s.perform io).2.1 := by
  rw [perform]
  split
  · exact ⟨⟨rfl, rfl, rfl, rfl, rfl⟩, rfl, rfl⟩
  · by_cases hinput : s.mode = .realtime ∧ s.input.size ≠ 0
    · have hsize := takeInput_size io s
      simp only [if_pos hinput]
      split <;> exact ⟨⟨rfl, rfl, rfl, rfl, rfl⟩, Oscillator.size_frames _ _ _ _, hsize⟩
    · simp only [if_neg hinput]
      split <;> exact ⟨⟨rfl, rfl, rfl, rfl, rfl⟩, Oscillator.size_frames _ _ _ _, rfl⟩

theorem perform_wantsInput (io : Io) (s : Sine) : (s.perform io).2.1.wantsInput = s.wantsInput := by
  rw [perform]
  split
  · rfl
  · by_cases hinput : s.mode = .realtime ∧ s.input.size ≠ 0
    · simp only [if_pos hinput]
      split <;> rfl
    · simp only [if_neg hinput]
      split <;> rfl

theorem perform_sameSetup (io : Io) (s : Sine) : s.SameSetup (s.perform io).2.1 :=
  have haside := (perform_filled io s).aside
  ⟨haside.1, haside.2.1, perform_wantsInput io s⟩

theorem save_sameSetup (h : s.save = .ok s') : s.SameSetup s' := by
  rw [save] at h
  split at h
  · cases h
    exact ⟨rfl, rfl, rfl⟩
  · split at h <;> cases h
    exact ⟨rfl, rfl, rfl⟩

theorem cleanup_sameSetup (io : Io) (s : Sine) : s.SameSetup (s.cleanup io).2.1 := by
  rw [cleanup]
  dsimp only
  split
  · next s' heq =>
    split at heq
    · obtain ⟨hsettings, horigin, hwants⟩ := save_sameSetup heq
      exact ⟨hsettings, horigin, hwants⟩
    · cases heq
      exact ⟨rfl, rfl, rfl⟩
  · exact ⟨rfl, rfl, rfl⟩

theorem IsSane.reset (h : s.IsSane) : s.reset.2.IsSane := by
  rw [Sine.reset]
  split
  · next e heq => exact (IsSane.build heq h.origin).congr ⟨rfl, rfl, rfl⟩
  · exact h.congr ⟨rfl, rfl, rfl⟩

/-- **Everything that is done with an engine keeps its settings positive.** -/
theorem IsSane.handles (hh : engine.Handles s s') (h : s.IsSane) : s'.IsSane := by
  cases hh with
  | tends ht =>
    cases ht with
    | @performs io _ _ _ _ hp =>
      obtain rfl : (s.perform io).2.1 = s' := congrArg (·.2.1) hp
      exact h.congr (perform_sameSetup io s)
    | calls op args => exact h.tweaks (call_tweaks s op args)
    | drains => exact h.congr ⟨rfl, rfl, rfl⟩
  | @starts io _ _ _ _ hs =>
    obtain rfl : (s.start io).2.1 = s' := congrArg (·.2.1) hs
    exact h.congr (start_sameSetup io s)
  | @cleans io _ _ _ _ hc =>
    obtain rfl : (s.cleanup io).2.1 = s' := congrArg (·.2.1) hc
    exact h.congr (cleanup_sameSetup io s)
  | resets => exact h.reset

end

/-! ### The shape of the blocks -/

/-- The mode of a performance that is begun on an engine. -/
def modeToBe (s : Sine) : Mode := if s.output.isSome then .offline else .realtime

/-- A performance that was begun on `s₁` goes on: its setup is as it was then, and the blocks have their sizes. -/
structure Shaped (s₁ s : Sine) : Prop where
  performing : s.performing = true
  settings_eq : s.settings = s₁.settings
  output_eq : s.output = s₁.output
  mode_eq : s.mode = s₁.modeToBe
  block_size : s.block.size = s₁.blockSamples
  input_size : s.input.size = 0 ∨ s.input.size = s₁.blockSamples

section

variable {s₁ s s' : Sine}

/-- A start that is accepted sizes the blocks. -/
theorem Shaped.start {io left : Io} (h : s.start io = (.ok 0, s', left)) : Shaped s s' := by
  rw [Sine.start] at h
  dsimp only at h
  split at h
  · cases h
  · cases h
    refine ⟨rfl, rfl, rfl, rfl, Array.size_replicate, ?_⟩
    show (if s.wantsInput = true then Array.replicate s.blockSamples 0 else #[]).size = 0 ∨ _
    split
    · exact .inr Array.size_replicate
    · exact .inl rfl

theorem Shaped.keeps (h : Shaped s₁ s) (hk : s.Keeps s') (ho : s'.output = s.output) : Shaped s₁ s' where
  performing := hk.performing_eq.trans h.performing
  settings_eq := hk.settings_eq.trans h.settings_eq
  output_eq := ho.trans h.output_eq
  mode_eq := hk.mode_eq.trans h.mode_eq
  block_size := hk.block_eq ▸ h.block_size
  input_size := hk.input_eq ▸ h.input_size

theorem Shaped.tweak (h : Shaped s₁ s) (ht : Tweak s s') : Shaped s₁ s' := by
  cases ht with
  | option _ hd =>
    obtain ⟨x, rfl⟩ := hd h.performing
    exact h.keeps ⟨rfl, rfl, rfl, rfl, rfl⟩ rfl
  | aside ha => exact h.keeps ha.keeps ha.output_eq

theorem Shaped.filled (h : Shaped s₁ s) (hf : Filled s s') : Shaped s₁ s' := by
  obtain ⟨⟨hsettings, -, houtput, hmode, hperforming⟩, hblock, hinput⟩ := hf
  exact ⟨hperforming.trans h.performing, hsettings.trans h.settings_eq, houtput.trans h.output_eq,
    hmode.trans h.mode_eq, hblock.trans h.block_size, hinput ▸ h.input_size⟩

/-- **Everything that is done until the end of a performance keeps the shape of its blocks.** -/
theorem Shaped.tends (ht : engine.Tends s s') (h : Shaped s₁ s) : Shaped s₁ s' := by
  cases ht with
  | @performs io _ _ _ _ hp =>
    obtain rfl : (s.perform io).2.1 = s' := congrArg (·.2.1) hp
    exact h.filled (perform_filled io s)
  | calls op args =>
    exact kept_of_reflTransGen (R := Tweak) (P := Shaped s₁) (fun _ _ ht h => h.tweak ht) (call_tweaks s op args) h
  | drains => exact h.keeps ⟨rfl, rfl, rfl, rfl, rfl⟩ rfl

end

/-- The samples in a block, if settings are positive and their product is a word. -/
theorem blockSamples_cast {s : Sine} (h : s.settings.IsPositive)
    (hword : s.settings.blockFrames * s.settings.outputs < 2 ^ 31) :
    (s.blockSamples : Int) = s.settings.blockFrames * s.settings.outputs := by
  have hpos : 0 < s.settings.blockFrames * s.settings.outputs := Int.mul_pos h.blockFrames h.outputs
  rw [blockSamples_eq_toNat (Int.le_of_lt hpos) hword, Int.toNat_of_nonneg (Int.le_of_lt hpos)]

/-! ### Blocks that are made within their bounds -/

/-- The entry of a table at a phase, if there is one; an empty table is silent. -/
def Tone.entry? (t : Tone) (phase : Float) : Option Float :=
  if t.table.isEmpty then some 0
  else t.table[min (phase * t.table.size.toFloat).toUInt64.toNat (t.table.size - 1)]?

/-- Write a sample into its place in a block, if there is one. -/
def put? (block : Array Float) (i : Nat) (x : Float) : Option (Array Float) :=
  if i < block.size then some (block.setIfInBounds i x) else none

namespace Oscillator

/-- Write one frame, unless one of its places is missing. -/
def frame? (t : Tone) (o : Oscillator) (frame : Nat) : Option Oscillator := do
  let level ← t.entry? o.phase
  let block ← (List.range t.channels).foldlM (fun block channel =>
    let i := frame * t.channels + channel
    put? block i (level * t.amplitude + t.input.getD i 0)) o.block
  some ⟨fractional (o.phase + t.increment), block⟩

/-- Write several frames, unless a place is missing. -/
def frames? (t : Tone) : Nat → Nat → Oscillator → Option Oscillator
  | 0, _, o => some o
  | n + 1, start, o => (o.frame? t start).bind (frames? t n (start + 1))

end Oscillator

/-- Fill the input block, unless more was read than it holds. -/
def takeInput? (io : Io) (s : Sine) : Option (Sine × Io) :=
  if (io.bank.audio.input.read s.input.size).1.length ≤ s.input.size then some (s.takeInput io) else none

/-- The engine and the rings after the oscillator has filled a block. -/
def filled (s : Sine) (frames : Nat) (o : Oscillator) (io : Io) : Attempt BlockEnd × Sine × Io :=
  let s := { s with phase := o.phase, block := o.block, framesDone := s.framesDone + frames }
  match s.mode with
  | .realtime => (.ok .more, s, { io with bank.audio.output := io.bank.audio.output.write o.block.toList })
  | .offline => (.ok .more, { s with rendered := s.rendered ++ o.block.map Float.toFloat32 }, io)

/-- Produce a block, unless a place outside of a block or table is asked for. -/
def perform? (io : Io) (s : Sine) : Option (Attempt BlockEnd × Sine × Io) :=
  if s.isOver then some (.ok .finished, s, io)
  else do
    let frames := s.settings.blockFrames.toNat
    let (s, io) ← if s.mode = .realtime ∧ s.input.size ≠ 0 then s.takeInput? io else some (s, io)
    let o ← Oscillator.frames? s.tone frames 0 ⟨s.phase, s.block⟩
    some (s.filled frames o io)

theorem Tone.entry?_eq (t : Tone) (phase : Float) : t.entry? phase = some (t.entry phase) := by
  rw [Tone.entry?, Tone.entry]
  split
  · next hempty =>
    rw [Array.isEmpty_iff] at hempty
    rw [hempty]
    rfl
  · next hempty =>
    have hsize : 0 < t.table.size := by
      rw [Array.isEmpty_iff, ← Array.size_eq_zero_iff] at hempty
      omega
    have hlt : min (phase * t.table.size.toFloat).toUInt64.toNat (t.table.size - 1) < t.table.size := by omega
    rw [Array.getD_eq_getD_getElem?, Array.getElem?_eq_getElem hlt]
    rfl

theorem foldlM_put? (f : Nat → Nat) (g : Nat → Float) (cs : List Nat) (block : Array Float)
    (h : ∀ c ∈ cs, f c < block.size) :
    cs.foldlM (fun b c => put? b (f c) (g c)) block =
      some (cs.foldl (fun b c => b.setIfInBounds (f c) (g c)) block) := by
  induction cs generalizing block with
  | nil => rfl
  | cons c cs ih =>
    have hput : put? block (f c) (g c) = some (block.setIfInBounds (f c) (g c)) :=
      if_pos (h c List.mem_cons_self)
    rw [List.foldlM_cons, hput]
    refine ih _ fun d hd => ?_
    rw [Array.size_setIfInBounds]
    exact h d (List.mem_cons_of_mem c hd)

namespace Oscillator

theorem frame?_eq (t : Tone) (o : Oscillator) (frame : Nat) (h : (frame + 1) * t.channels ≤ o.block.size) :
    o.frame? t frame = some (o.frame t frame) := by
  have hput := foldlM_put? (fun channel => frame * t.channels + channel)
    (fun channel => t.entry o.phase * t.amplitude + t.input.getD (frame * t.channels + channel) 0)
    (List.range t.channels) o.block fun c hc => by
      rw [Nat.add_mul, Nat.one_mul] at h
      have := List.mem_range.1 hc
      omega
  rw [frame?, Tone.entry?_eq]
  simp only [Option.bind_eq_bind, Option.bind_some]
  rw [hput]
  rfl

/-- As many frames as fit into a block are written within it. -/
theorem frames?_eq (t : Tone) (n start : Nat) (o : Oscillator) (h : (start + n) * t.channels ≤ o.block.size) :
    frames? t n start o = some (frames t n start o) := by
  induction n generalizing start o with
  | zero => rfl
  | succ n ih =>
    have hnext : (start + 1 + n) * t.channels ≤ o.block.size := by rwa [Nat.add_assoc, Nat.add_comm 1]
    have hframe : (start + 1) * t.channels ≤ o.block.size :=
      (Nat.mul_le_mul_right _ (Nat.le_add_right _ _)).trans hnext
    rw [frames?, frame?_eq t o start hframe, frames]
    exact ih (start + 1) _ (by rwa [size_frame])

end Oscillator

theorem takeInput?_eq (io : Io) (s : Sine) : s.takeInput? io = some (s.takeInput io) := by
  refine if_pos ?_
  rw [Ring.read_fst, List.length_take]
  exact Nat.min_le_left _ _

/-- **A block that fits is made within its bounds.** -/
theorem perform?_eq (io : Io) {s : Sine}
    (h : s.settings.blockFrames.toNat * s.settings.outputs.toNat ≤ s.block.size) :
    s.perform? io = some (s.perform io) := by
  have hfits (t : Sine) (ht : t.tone.channels = s.settings.outputs.toNat) :
      Oscillator.frames? t.tone s.settings.blockFrames.toNat 0 ⟨t.phase, s.block⟩ =
        some (.frames t.tone s.settings.blockFrames.toNat 0 ⟨t.phase, s.block⟩) :=
    Oscillator.frames?_eq _ _ _ _ (by rwa [Nat.zero_add, ht])
  by_cases hover : s.isOver = true
  · rw [perform?, if_pos hover, perform, if_pos hover]
  · rw [perform?, if_neg hover, perform, if_neg hover]
    by_cases hinput : s.mode = .realtime ∧ s.input.size ≠ 0
    · rw [if_pos hinput, if_pos hinput, takeInput?_eq]
      exact congrArg (Option.bind · fun o => some ((s.takeInput io).1.filled _ o (s.takeInput io).2))
        (hfits (s.takeInput io).1 rfl)
    · rw [if_neg hinput, if_neg hinput]
      exact congrArg (Option.bind · fun o => some (s.filled _ o io)) (hfits s rfl)

end Sine

/-! ### Every run of the worker -/

namespace Bench

open Sine

/-- **The shape of the blocks is fixed from the start of a performance to its end.**  The worker is given anything:
setups with positive settings, starts, resets and operations, whether they are refused or not, turns, and a memory
that the others have changed; a block never gets more samples than a word can count.  Whenever a performance goes on,

* it was begun by a request of the run, and has gone on since;
* the settings and the output of the engine are as they were then, and its mode is the one that they asked for;
* the output block has exactly as many samples as there are output channels in the frames of a block, and the input
  block as many or none;
* a block that is made, on whatever the rings hold by then, is made within the bounds of its blocks and its table, and
  has that size. -/
theorem shape_fixed (memory : Memory) {inputs : List Input}
    (hsetups : ∀ setup, Input.request (.build setup) ∈ inputs → setup.settings.IsPositive)
    (hword : ∀ before, before <+: inputs → ∀ k,
      (run engine { factory := (), memory := memory } before).hosted = some k →
        k.engine.settings.blockFrames * k.engine.settings.outputs < 2 ^ 31)
    {e : Sine} {a : Active}
    (h : (run engine { factory := (), memory := memory } inputs).hosted = some ⟨e, some a⟩) :
    ∃ pre number post e₁,
      inputs = pre ++ .request (.start number a.io) :: post ∧
      Began engine { factory := (), memory := memory } pre number post e₁ a ∧
      (e.settings = e₁.settings ∧ e.output = e₁.output ∧ e.mode = e₁.modeToBe ∧ a.mode = e₁.modeToBe) ∧
      e.settings.IsPositive ∧
      (e.block.size : Int) = e.settings.blockFrames * e.settings.outputs ∧
      (e.input.size = 0 ∨ e.input.size = e.block.size) ∧
      ∀ io, e.perform? io = some (e.perform io) ∧ (e.perform io).2.1.block.size = e.block.size := by
  obtain ⟨pre, number, post, e₁, e₂, left, hinputs, hbegan, hs, hmode, hsince⟩ := began_of_active engine rfl h
  have hstarted : Shaped e₁ e₂ := Shaped.start hs
  have hshaped : Shaped e₁ e :=
    kept_of_reflTransGen (R := engine.Tends) (P := Shaped e₁) (fun _ _ => Shaped.tends) hsince hstarted
  have hsane : e₁.IsSane := by
    refine run_handled (P := IsSane) (fun _ _ => IsSane.handles) rfl pre ?_ _ hbegan.hosted
    intro setup f f' s hm hbuild
    refine IsSane.build (congrArg Prod.fst hbuild) (hsetups setup ?_)
    rw [hinputs]
    exact List.mem_append_left _ hm
  have hsamples := blockSamples_cast hsane.settings (hword pre ⟨_, hinputs.symm⟩ _ hbegan.hosted)
  have hsize : (e.block.size : Int) = e.settings.blockFrames * e.settings.outputs := by
    rw [hshaped.block_size, hsamples, hshaped.settings_eq]
  have hpositive : e.settings.IsPositive := hshaped.settings_eq ▸ hsane.settings
  have hfits : e.settings.blockFrames.toNat * e.settings.outputs.toNat ≤ e.block.size := by
    refine Int.ofNat_le.1 (Int.le_of_eq ?_)
    rw [hsize, Int.natCast_mul, Int.toNat_of_nonneg (Int.le_of_lt hpositive.blockFrames),
      Int.toNat_of_nonneg (Int.le_of_lt hpositive.outputs)]
  refine ⟨pre, number, post, e₁, hinputs, hbegan, ⟨hshaped.settings_eq, hshaped.output_eq, hshaped.mode_eq, ?_⟩,
    hpositive, hsize, ?_, fun io => ⟨perform?_eq io hfits, (perform_filled io e).block_size⟩⟩
  · rw [hmode]
    exact hstarted.mode_eq
  · rw [hshaped.block_size]
    exact hshaped.input_size

/-- Two options for longer blocks come during a performance, one with a request and one in a document: its blocks
keep their two samples. -/
theorem shape_fixed_meddled :
    let inputs : List Input :=
      [.request (.build ⟨{ blockFrames := 2, outputs := 1 }, []⟩), .request (.start 1 ⟨0, 0⟩),
        .request (.call 1 .setOption [.str "--ksmps=5"]), .idle false,
        .request (.call 1 .compileCsd [.str "<CsOptions>-k5</CsOptions>"])]
    let b := run engine { factory := (), memory := (Memory.allocIo {} 16 4).2 } inputs
    ∃ e a, b.hosted = some ⟨e, some a⟩ ∧ e.block.size = 2 ∧ e.input.size = 0 ∧
      ∀ io, e.perform? io = some (e.perform io) ∧ (e.perform io).2.1.block.size = 2 := by
  intro inputs b
  have hrun : ∃ e a, b.hosted = some ⟨e, some a⟩ ∧ e.settings.blockFrames = 2 ∧ e.settings.outputs = 1 ∧
      e.input.size = 0 := ⟨_, _, rfl, rfl, rfl, rfl⟩
  obtain ⟨e, a, hhosted, hframes, houtputs, hinput⟩ := hrun
  have hsetups : ∀ setup, Input.request (.build setup) ∈ inputs → setup.settings.IsPositive := by
    intro setup hm
    simp only [inputs, List.mem_cons, Input.request.injEq, Request.build.injEq, reduceCtorEq, List.not_mem_nil,
      or_false] at hm
    rw [hm]
    exact ⟨by decide, by decide, by decide⟩
  have hwords : ∀ n < 6, ((run engine { factory := (), memory := (Memory.allocIo {} 16 4).2 }
      (inputs.take n)).hosted.all fun k => k.engine.settings.blockFrames * k.engine.settings.outputs < 2 ^ 31) := by
    decide
  obtain ⟨-, -, -, -, -, -, -, -, hsize, -, hbounds⟩ := shape_fixed _ hsetups (fun before hb k hk => by
    have hall := hwords before.length (Nat.lt_succ_of_le hb.length_le)
    rw [← List.prefix_iff_eq_take.1 hb, hk] at hall
    simpa using hall) hhosted
  have htwo : e.block.size = 2 := by
    rw [hframes, houtputs] at hsize
    exact Int.ofNat.inj hsize
  exact ⟨e, a, hhosted, htwo, hinput, fun io => ⟨(hbounds io).1, (hbounds io).2.trans htwo⟩⟩

end Bench
end SynthControl
