import Mathlib.Data.Int.GCD
import SynthControl.Config.Basic

/-!
# Fill levels

A ring is filled block by block as long as less than a mark is in it, and drained cycle by cycle.  Which
levels it comes to, and whether a block ever finds no room, is a matter of numbers alone.

* `Level` — the levels that filling and draining in any order come to;
* `Level.rotate` — filling below a cycle and draining above it is a rotation;
* `Level.level_iff` — **if a whole cycle is kept ahead, the levels are the multiples of the greatest common divisor
  of block and cycle below the mark and a block**;
* `Config.blockSamples`, `cycleSamples`, `markSamples` — block, cycle and mark of a configuration;
* `Config.HasRoom`, `hasRoom_iff` — **no block ever finds too little room**, as a condition on the buffers.
-/

namespace SynthControl

/-- The levels of a ring that is empty at first, gets a block whenever it is below the mark, and a cycle less
at any time. -/
inductive Level (block cycle mark : Nat) : Nat → Prop where
  | empty : Level block cycle mark 0
  | fill {v : Nat} (h : Level block cycle mark v) (hv : v < mark) : Level block cycle mark (v + block)
  | drain {v : Nat} (h : Level block cycle mark v) : Level block cycle mark (v - cycle)

namespace Level

variable {block cycle mark v : Nat}

theorem lt_add (hmark : 0 < mark) (h : Level block cycle mark v) : v < mark + block := by
  induction h with
  | empty => omega
  | fill _ hv => omega
  | drain _ ih => omega

/-- What divides block and cycle divides every level. -/
theorem dvd {n : Nat} (hblock : n ∣ block) (hcycle : n ∣ cycle) (h : Level block cycle mark v) : n ∣ v := by
  induction h with
  | empty => exact Nat.dvd_zero n
  | fill _ _ ih => exact Nat.dvd_add ih hblock
  | drain _ ih => exact Nat.dvd_sub ih hcycle

/-- Filling below a cycle and draining above it goes around a circle of a cycle and a block, if what is below a
cycle is filled. -/
theorem rotate (hcycle : 0 < cycle) (hfill : ∀ v, Level block cycle mark v → v < cycle → v < mark) (n : Nat) :
    Level block cycle mark (block * n % (cycle + block)) := by
  induction n with
  | zero =>
    rw [Nat.mul_zero, Nat.zero_mod]
    exact .empty
  | succ n ih =>
    have hlt : block * n % (cycle + block) < cycle + block := Nat.mod_lt _ (by omega)
    have hnext : block * (n + 1) % (cycle + block) =
        (block * n % (cycle + block) + block) % (cycle + block) := by
      rw [Nat.mul_succ, Nat.mod_add_mod]
    rw [hnext]
    generalize block * n % (cycle + block) = v at ih hlt
    by_cases hv : v < cycle
    · rw [Nat.mod_eq_of_lt (by omega)]
      exact ih.fill (hfill _ ih hv)
    · have haround : (v + block) % (cycle + block) = v - cycle := by
        rw [Nat.mod_eq_sub_mod (by omega), Nat.mod_eq_of_lt (by omega)]
        omega
      rw [haround]
      exact ih.drain

/-- So it comes to every multiple of the greatest common divisor on the circle. -/
theorem of_dvd (hblock : 0 < block) (hcycle : 0 < cycle)
    (hfill : ∀ v, Level block cycle mark v → v < cycle → v < mark)
    (hdvd : Nat.gcd block cycle ∣ v) (hv : v < cycle + block) : Level block cycle mark v := by
  have hgcd : Nat.gcd block (cycle + block) = Nat.gcd block cycle := Nat.gcd_add_self_right block cycle
  have hle : Nat.gcd block cycle ≤ block := Nat.gcd_le_left cycle hblock
  obtain ⟨m, -, hm⟩ := Nat.exists_mul_mod_eq_gcd (k := cycle + block) (n := block) (by omega)
  obtain ⟨j, rfl⟩ := hdvd
  have hmul : block * (m * j) % (cycle + block) = Nat.gcd block cycle * j := by
    rw [← Nat.mul_assoc, ← Nat.mod_mul_mod, hm, hgcd]
    exact Nat.mod_eq_of_lt hv
  have h : Level block cycle mark (block * (m * j) % (cycle + block)) := rotate hcycle hfill (m * j)
  rwa [hmul] at h

/-- **If a cycle is at most the mark, the levels are the multiples of the greatest common divisor of block and
cycle that lie below the mark and a block.** -/
theorem level_iff (hblock : 0 < block) (hcycle : 0 < cycle) (hmark : cycle ≤ mark) :
    Level block cycle mark v ↔ Nat.gcd block cycle ∣ v ∧ v < mark + block := by
  constructor
  · intro h
    exact ⟨h.dvd (Nat.gcd_dvd_left block cycle) (Nat.gcd_dvd_right block cycle), h.lt_add (by omega)⟩
  · rintro ⟨hdvd, hv⟩
    -- above the circle a level comes from the one that lies a block below it
    induction v using Nat.strong_induction_on with
    | _ v ih =>
      by_cases hcircle : v < cycle + block
      · exact of_dvd hblock hcycle (fun _ _ hlow => Nat.lt_of_lt_of_le hlow hmark) hdvd hcircle
      · have hbelow : Nat.gcd block cycle ∣ v - block := Nat.dvd_sub hdvd (Nat.gcd_dvd_left block cycle)
        have h := (ih (v - block) (by omega) hbelow (by omega)).fill (by omega)
        rwa [Nat.sub_add_cancel (by omega)] at h

end Level

/-! ### The levels of a configuration -/

namespace Config

variable (c : Config)

/-- The samples in a block. -/
def blockSamples : Nat := (c.engine.blockFrames * c.engine.outputs).toNat

/-- The samples that a render cycle takes. -/
def cycleSamples : Nat := c.engine.hardwareFrames.toNat * c.engine.outputs.toNat

/-- The samples that the engine keeps ahead of the render loop, if the ring holds as many.  The frames are added up in
a word of 32 bits. -/
def markSamples : Nat :=
  min ((max (wrapped (c.engine.hardwareFrames + c.engine.softwareFrames)) 1).toNat * c.engine.outputs.toNat)
    c.buffers.ringSamples

/-- Whenever less than the mark is in the ring, there is room for a block. -/
def HasRoom : Prop :=
  ∀ v, Level c.blockSamples c.cycleSamples c.markSamples v → v < c.markSamples →
    v + c.blockSamples ≤ c.buffers.ringSamples

variable {c}

/-- What is usable has blocks, cycles and a mark, and its ring holds a cycle. -/
theorem samples_pos (hc : c.fault? = none) :
    0 < c.blockSamples ∧ 0 < c.cycleSamples ∧ 0 < c.markSamples ∧
      c.cycleSamples ≤ c.buffers.ringSamples := by
  obtain ⟨-, hchannels, hframes, -, hblock, houtputs, hlimit, -, -, hhardware, hcycle⟩ :=
    fault?_eq_none_iff.1 hc
  have hring : 0 < c.buffers.ringSamples := Nat.mul_pos hchannels hframes
  refine ⟨?_, ?_, ?_, ?_⟩
  · have h := Int.mul_pos hblock houtputs
    rw [blockSamples]
    omega
  · exact Nat.mul_pos (by omega) (by omega)
  · have h : 0 < (max (wrapped (c.engine.hardwareFrames + c.engine.softwareFrames)) 1).toNat *
        c.engine.outputs.toNat := Nat.mul_pos (by omega) (by omega)
    rw [markSamples]
    omega
  · rw [cycleSamples, Buffers.ringSamples, Nat.mul_comm]
    exact Nat.mul_le_mul (by omega) (by omega)

/-- Blocks and cycles are whole frames. -/
theorem outputs_dvd (hc : c.fault? = none) :
    c.engine.outputs.toNat ∣ c.blockSamples ∧ c.engine.outputs.toNat ∣ c.cycleSamples := by
  obtain ⟨-, -, -, -, hblock, houtputs, -⟩ := fault?_eq_none_iff.1 hc
  refine ⟨?_, Nat.dvd_mul_left _ _⟩
  rw [blockSamples, Int.toNat_mul (Int.le_of_lt hblock) (Int.le_of_lt houtputs)]
  exact Nat.dvd_mul_left _ _

/-- The mark is at a cycle or above it, if the engine is to keep frames ahead and a word has room for the sum. -/
theorem cycleSamples_le_markSamples (hc : c.fault? = none) (hs : 0 ≤ c.engine.softwareFrames)
    (hsum : c.engine.hardwareFrames + c.engine.softwareFrames < 2 ^ 31) : c.cycleSamples ≤ c.markSamples := by
  obtain ⟨-, -, -, hring⟩ := samples_pos hc
  obtain ⟨-, -, -, -, -, -, -, -, -, hhardware, -⟩ := fault?_eq_none_iff.1 hc
  refine Nat.le_min.2 ⟨?_, hring⟩
  rw [wrapped_eq (by omega) (by omega)]
  exact Nat.mul_le_mul (by omega) (Nat.le_refl _)

/-- **There is always room for a block exactly if the ring holds a block above the highest level below the
mark**, which is a multiple of the greatest common divisor of block and cycle. -/
theorem hasRoom_iff (hc : c.fault? = none) (hs : 0 ≤ c.engine.softwareFrames)
    (hsum : c.engine.hardwareFrames + c.engine.softwareFrames < 2 ^ 31) :
    c.HasRoom ↔
      (c.markSamples - 1) / Nat.gcd c.blockSamples c.cycleSamples * Nat.gcd c.blockSamples c.cycleSamples +
        c.blockSamples ≤ c.buffers.ringSamples := by
  obtain ⟨hblock, hcycle, hmark, -⟩ := samples_pos hc
  have hlevels := fun v => Level.level_iff (v := v) hblock hcycle (cycleSamples_le_markSamples hc hs hsum)
  have hpos : 0 < Nat.gcd c.blockSamples c.cycleSamples := Nat.gcd_pos_of_pos_left _ hblock
  generalize Nat.gcd c.blockSamples c.cycleSamples = g at *
  have hhighest : (c.markSamples - 1) / g * g ≤ c.markSamples - 1 := Nat.div_mul_le_self _ _
  constructor
  · intro h
    refine h _ ((hlevels _).2 ⟨Nat.dvd_mul_left _ _, by omega⟩) (by omega)
  · intro h v hv hlt
    obtain ⟨⟨j, rfl⟩, -⟩ := (hlevels v).1 hv
    have hj : j ≤ (c.markSamples - 1) / g := (Nat.le_div_iff_mul_le hpos).2 (by rw [Nat.mul_comm]; omega)
    have hbelow : g * j ≤ (c.markSamples - 1) / g * g := by
      rw [Nat.mul_comm g j]
      exact Nat.mul_le_mul_right g hj
    omega

example : HasRoom {} := (hasRoom_iff rfl (by decide) (by decide)).2 (by decide)

end Config
end SynthControl
