import SynthControl.Proofs.BlockShape
import SynthControl.Proofs.Coherence
import SynthControl.Proofs.OutputPath

/-!
# Whether a full ring feeds a cycle

The worker of a realtime performance stops making blocks when the mark is reached in the output ring, and waits for
the render loop.  The mark is a hardware buffer and a software buffer ahead.  Whether the loop then finds a whole
cycle in the ring depends on the sizes in the configuration: a software buffer below zero puts the mark below a
cycle.

* `Level.feeds_iff` — the levels from the mark on hold a cycle **exactly if the mark is less than a greatest common
  divisor of block and cycle below the cycle**;
* `Stand` — the levels of a ring that may overflow; `stand_iff_level` — with room for every block it does not;
* `Config.FeedsCycles`, `feedsCycles_of_ahead`, `feedsCycles_iff` — whenever the mark is reached a cycle is there;
* `Occurrence`, `serve`, `Holds` — turns of a performance with calls of operations in between, and **the levels that
  they come to**;
* `Fed`, `fed_iff` — **a worker that waits has fed the next cycle exactly if the configuration feeds cycles.**
-/

namespace SynthControl

/-! ### Levels -/

namespace Level

variable {block cycle mark v : Nat}

/-- **From the mark on every level holds a cycle exactly if the mark is less than a greatest common divisor of block
and cycle below the cycle**: the levels are its multiples, and the last one below a cycle is come to. -/
theorem feeds_iff (hblock : 0 < block) (hcycle : 0 < cycle) :
    (∀ v, Level block cycle mark v → mark ≤ v → cycle ≤ v) ↔ cycle < mark + Nat.gcd block cycle := by
  have hpos : 0 < Nat.gcd block cycle := Nat.gcd_pos_of_pos_left _ hblock
  have hle : Nat.gcd block cycle ≤ cycle := Nat.gcd_le_right block hcycle
  constructor
  · intro hfeeds
    by_contra hlow
    have hfill : ∀ v, Level block cycle mark v → v < cycle → v < mark := by
      intro v hv hbelow
      by_contra hmark
      have := hfeeds v hv (Nat.le_of_not_lt hmark)
      omega
    have hdvd : Nat.gcd block cycle ∣ cycle - Nat.gcd block cycle :=
      Nat.dvd_sub (Nat.gcd_dvd_right block cycle) (Nat.dvd_refl _)
    have hlast := of_dvd hblock hcycle hfill hdvd (by omega)
    have := hfeeds _ hlast (by omega)
    omega
  · intro hnear v hv hmark
    by_contra hbelow
    -- two multiples lie as far apart as the divisor
    have hdvd : Nat.gcd block cycle ∣ cycle - v :=
      Nat.dvd_sub (Nat.gcd_dvd_right block cycle)
        (hv.dvd (Nat.gcd_dvd_left block cycle) (Nat.gcd_dvd_right block cycle))
    have := Nat.le_of_dvd (by omega) hdvd
    omega

end Level

/-- The levels of a ring that is empty at first, gets a block whenever it is below the mark, and a cycle less at any
time.  What does not fit overwrites what is there. -/
inductive Stand (block cycle mark ring : Nat) : Nat → Prop where
  | empty : Stand block cycle mark ring 0
  | fill {v : Nat} (h : Stand block cycle mark ring v) (hv : v < mark) :
      Stand block cycle mark ring (min (v + block) ring)
  | drain {v : Nat} (h : Stand block cycle mark ring v) : Stand block cycle mark ring (v - cycle)

/-- With room for every block nothing overflows. -/
theorem stand_iff_level {block cycle mark ring v : Nat}
    (hroom : ∀ v, Level block cycle mark v → v < mark → v + block ≤ ring) :
    Stand block cycle mark ring v ↔ Level block cycle mark v := by
  constructor
  · intro h
    induction h with
    | empty => exact .empty
    | fill _ hv ih =>
      rw [Nat.min_eq_left (hroom _ ih hv)]
      exact ih.fill hv
    | drain _ ih => exact ih.drain
  · intro h
    induction h with
    | empty => exact .empty
    | fill hlevel hv ih =>
      rw [← Nat.min_eq_left (hroom _ hlevel hv)]
      exact ih.fill hv
    | drain _ ih => exact ih.drain

namespace Config

variable (c : Config)

/-- Whenever the mark is reached, a whole cycle is in the ring. -/
def FeedsCycles : Prop :=
  ∀ v, Stand c.blockSamples c.cycleSamples c.markSamples c.buffers.ringSamples v →
    c.markSamples ≤ v → c.cycleSamples ≤ v

variable {c}

/-- A software buffer that is not below zero keeps the mark at a cycle or above it, if a word has room for the sum. -/
theorem feedsCycles_of_ahead (hc : c.fault? = none) (hs : 0 ≤ c.engine.softwareFrames)
    (hsum : c.engine.hardwareFrames + c.engine.softwareFrames < 2 ^ 31) : c.FeedsCycles :=
  fun _ _ hmark => (cycleSamples_le_markSamples hc hs hsum).trans hmark

/-- With room for every block, the mark may lie less than a greatest common divisor below a cycle. -/
theorem feedsCycles_iff (hc : c.fault? = none) (hroom : c.HasRoom) :
    c.FeedsCycles ↔ c.cycleSamples < c.markSamples + Nat.gcd c.blockSamples c.cycleSamples := by
  obtain ⟨hblock, hcycle, -, -⟩ := samples_pos hc
  rw [← Level.feeds_iff hblock hcycle]
  refine forall_congr' fun v => ?_
  rw [stand_iff_level hroom]

end Config

/-! ### Operations in between -/

namespace Sine.Streams

variable {s s' : Sine} {samples : Nat}

/-- No operation has a part in the size of the blocks. -/
theorem tweak (hs : s.Streams samples) (ht : Tweak s s') : s'.Streams samples := by
  obtain ⟨hmode, hsize⟩ := hs
  cases ht with
  | @option c _ _ => cases c <;> exact ⟨hmode, hsize⟩
  | aside ha => exact ⟨ha.keeps.mode_eq.trans hmode, ha.keeps.block_eq ▸ hsize⟩

theorem call (hs : s.Streams samples) (op : Operation) (args : List Value) : (s.call op args).2.Streams samples :=
  kept_of_reflTransGen (R := Tweak) (P := (Sine.Streams · samples)) (fun _ _ ht h => h.tweak ht)
    (call_tweaks s op args) hs

end Sine.Streams

namespace Bench

variable {c : Config} {h : Handle} {b : Bench Unit Sine}

/-- An engine that has executed an operation is put back. -/
theorem Pours.setEngine (hp : b.Pours c h) {e : Sine} {a : Option Active} (hb : b.hosted = some ⟨e, a⟩)
    (op : Operation) (args : List Value) : (b.setEngine (e.call op args).2).Pours c h := by
  refine ⟨hp.has, hp.suits, fun e₁ a₁ he => ?_⟩
  obtain ⟨rfl, ha⟩ : (e.call op args).2 = e₁ ∧ b.active? = some a₁ := by simpa [Bench.setEngine] using he
  rw [active?_of_hosted hb] at ha
  obtain ⟨hio, hstreams⟩ := hp.hosted e a₁ (ha ▸ hb)
  exact ⟨hio, hstreams.call op args⟩

/-- The worker serves a call of an operation, and what pours goes on. -/
theorem Pours.handle_call (hp : b.Pours c h) (number : Int) (op : Operation) (args : List Value) :
    (b.handle Sine.engine (.call number op args)).2.Pours c h ∧
      (b.handle Sine.engine (.call number op args)).2.output h = b.output h := by
  cases he : b.engine? number with
  | error e =>
    have hleft : (b.handle Sine.engine (.call number op args)).2 = b.forward Sine.engine := by
      simp only [handle, call, he, respond]
    rw [hleft, output, forward_memory]
    exact ⟨hp.forward, rfl⟩
  | ok e =>
    obtain ⟨-, a, hb⟩ := hosted_of_engine? he
    have hput := hp.setEngine hb op args
    have halive : (e.call op args).1 ≠ .crashed := Sine.engine_steady.call op args e
    have hleft : (b.handle Sine.engine (.call number op args)).2 =
        (b.setEngine (e.call op args).2).forward Sine.engine := by
      simp only [handle, call, he]
      show (respond Sine.engine ((e.call op args).1, b.setEngine (e.call op args).2)).2 = _
      cases hr : (e.call op args).1 with
      | ok v => rfl
      | failed err => rfl
      | crashed => exact absurd hr halive
    rw [hleft, output, forward_memory]
    exact ⟨hput.forward, rfl⟩

/-- At the mark a performance that goes on waits for the render loop. -/
theorem Ready.next_eq (hr : b.Ready c h) (hc : c.fault? = none) (hmark : c.markSamples ≤ (b.output h).unread) :
    b.next = .awaitCycle := by
  obtain ⟨e, hb, -⟩ := hr.hosted
  have hfull : isFull (b.memory.io h) = true := (hr.pours.suits.isFull_iff hc).2 hmark
  have hstop : (b.memory.region h.region).get .stop = 0 := hr.stop_eq
  have hperforming : (b.memory.region h.region).get .performing = 1 := hr.performing_eq
  have hpaused : (b.memory.region h.region).get .paused = 0 := hr.paused_eq
  rw [next, active?_of_hosted hb]
  simp [Region.isSet, hstop, hperforming, hpaused, hfull]

/-- A worker that waits for the render loop has found the ring full. -/
theorem isFull_of_next (hnext : b.next = .awaitCycle) :
    ∃ a, b.active? = some a ∧ isFull (b.memory.io a.io) = true := by
  rw [next] at hnext
  split at hnext
  · cases hnext
  · next a ha =>
    refine ⟨a, ha, ?_⟩
    dsimp only at hnext
    split at hnext
    · cases hnext
    · split at hnext
      · cases hnext
      · split at hnext
        · next hfull => exact (Bool.and_eq_true_iff.1 hfull).2
        · cases hnext

end Bench

/-! ### Runs -/

namespace OutputPath

open Render Bench

variable {c : Config} {h : Handle} {l : Loop Unit} {b : Bench Unit Sine}

/-- What can happen to a realtime performance: its turns, and calls of operations in between. -/
inductive Occurrence where
  | turn (t : Turn)
  /-- The worker serves a call, whatever number of an engine it names. -/
  | call (number : Int) (op : Operation) (args : List Value)

/-- What an event does; the samples that are made and heard in it. -/
def serve (h : Handle) (l : Loop Unit) : Occurrence → Bench Unit Sine → (List Float × List Float) × Bench Unit Sine
  | .turn t, b => act h l t b
  | .call number op args, b => (([], []), (b.handle Sine.engine (.call number op args)).2)

/-- The performance pours, at a level that belongs to it, whether anything was overwritten or not. -/
structure Holds (c : Config) (h : Handle) (b : Bench Unit Sine) : Prop where
  pours : b.Pours c h
  stand : Stand c.blockSamples c.cycleSamples c.markSamples c.buffers.ringSamples (b.output h).unread

/-- What is written into a ring is in it then, as far as it fits. -/
theorem unread_of_gains {data : List Float} {left : Io} (hp : b.Pours c h) (hg : (b.memory.io h).Gains data left) :
    left.bank.audio.output.unread = min ((b.output h).unread + data.length) c.buffers.ringSamples := by
  rw [hg.output_eq, ← Ring.length_contents, Ring.contents_write hp.suits.sound, List.rtake, List.length_drop,
    List.length_append, Ring.length_contents, hp.suits.capacity_eq]
  show (b.output h).unread + _ - ((b.output h).unread + _ - _) = _
  omega

/-- What is in the ring fits it. -/
theorem unread_le (hp : b.Pours c h) : (b.output h).unread ≤ c.buffers.ringSamples :=
  (Ring.unread_le_capacity _).trans (Nat.le_of_eq hp.suits.capacity_eq)

/-- **Every event leads from a level to a level.** -/
theorem Holds.serve (hh : Holds c h b) (hc : c.fault? = none) (hl : l.frames * l.outputs = c.cycleSamples)
    (event : Occurrence) : Holds c h (serve h l event b).2 := by
  obtain ⟨hp, hstand⟩ := hh
  cases event with
  | call number op args =>
    obtain ⟨hcalled, hring⟩ := hp.handle_call number op args
    refine ⟨hcalled, ?_⟩
    show Stand _ _ _ _ ((b.handle Sine.engine (.call number op args)).2.output h).unread
    rwa [hring]
  | turn t =>
    cases t with
    | work notified =>
      obtain ⟨hstep, hgains⟩ := hp.step notified
      refine ⟨hstep, ?_⟩
      have hunread := unread_of_gains hp hgains
      show Stand _ _ _ _ ((b.step Sine.engine notified).output h).unread
      rw [output, hunread]
      rcases hp.produces_cases hc with hnone | ⟨hblock, hbelow⟩
      · rw [hnone, List.length_nil, Nat.add_zero, Nat.min_eq_left (unread_le hp)]
        exact hstand
      · rw [hblock]
        exact hstand.fill hbelow
    | cycle =>
      refine ⟨pours_cycle hp, ?_⟩
      show Stand _ _ _ _ ((act h l .cycle b).2.output h).unread
      rw [unread_cycle hp hl]
      exact hstand.drain
    | meddle f hf =>
      have hleft : (b.memory.setIo h (f (b.memory.io h))).io h = f (b.memory.io h) := Memory.io_setIo hp.has _
      have hgains := hf (b.memory.io h)
      refine ⟨hp.setIo (hp.suits.gains hgains), ?_⟩
      show Stand _ _ _ _ (((b.memory.setIo h (f (b.memory.io h))).io h).bank.audio.output).unread
      rw [hleft, hgains.output_eq]
      exact hstand

/-- A performance that goes on comes to every level. -/
theorem exists_stand (hr : b.Ready c h) (hempty : (b.output h).contents = []) (hc : c.fault? = none)
    (hl : l.frames * l.outputs = c.cycleSamples) {v : Nat}
    (hv : Stand c.blockSamples c.cycleSamples c.markSamples c.buffers.ringSamples v) :
    ∃ events, (final (serve h l) events b).Ready c h ∧ ((final (serve h l) events b).output h).unread = v := by
  induction hv with
  | empty =>
    refine ⟨[], hr, ?_⟩
    rw [← Ring.length_contents]
    exact congrArg List.length hempty
  | fill _ hbelow ih =>
    obtain ⟨events, hready, hunread⟩ := ih
    refine ⟨events ++ [.turn (.work false)], ?_⟩
    rw [final_append]
    generalize final (OutputPath.serve h l) events b = b₁ at *
    obtain ⟨hnext, hblock⟩ := hready.step hc (by rwa [hunread])
    refine ⟨hnext, ?_⟩
    have hgains := unread_of_gains hready.pours (hready.pours.step false).2
    rw [hunread, hblock] at hgains
    exact hgains
  | drain _ ih =>
    obtain ⟨events, hready, hunread⟩ := ih
    refine ⟨events ++ [.turn .cycle], ?_⟩
    rw [final_append]
    refine ⟨ready_cycle hready, ?_⟩
    exact (unread_cycle hready.pours hl).trans (congrArg (· - c.cycleSamples) hunread)

/-! ### The condition -/

/-- If the worker waits, a hardware buffer is in the ring, and the next cycle hands out what is in the ring, without
silence. -/
def Fed (h : Handle) (l : Loop Unit) (b : Bench Unit Sine) : Prop :=
  let io := b.memory.io h
  b.next = .awaitCycle →
    io.region.get .hardwareFrames * io.region.get .outputs ≤ io.bank.audio.output.unread ∧
      (l.block io).1 <+: io.bank.audio.output.contents

/-- A cycle that is in the ring is handed out without silence. -/
theorem block_prefix (hl : l.frames * l.outputs = c.cycleSamples)
    (hcycle : c.cycleSamples ≤ (b.output h).unread) :
    (l.block (b.memory.io h)).1 <+: (b.memory.io h).bank.audio.output.contents := by
  have htaken : ((b.output h).read (l.frames * l.outputs)).1 =
      (b.output h).contents.take (l.frames * l.outputs) := Ring.read_fst _ _
  show resized (l.frames * l.outputs) ((b.output h).read (l.frames * l.outputs)).1 <+: (b.output h).contents
  rw [htaken, resized, List.take_take, Nat.min_self, List.length_take, Ring.length_contents, hl,
    Nat.min_eq_left hcycle, Nat.sub_self, List.replicate_zero, List.append_nil]
  exact List.take_prefix _ _

/-- The samples of a cycle, as region and configuration have them. -/
theorem cycle_eq (hp : b.Pours c h) (hc : c.fault? = none) :
    (b.memory.io h).region.get .hardwareFrames * (b.memory.io h).region.get .outputs = c.cycleSamples := by
  obtain ⟨-, -, -, -, -, houtputs, -, -, -, hhardware, -⟩ := Config.fault?_eq_none_iff.1 hc
  rw [hp.suits.hardware_eq, hp.suits.outputs_eq, Config.cycleSamples, Int.natCast_mul,
    Int.toNat_of_nonneg (Int.le_of_lt hhardware), Int.toNat_of_nonneg (Int.le_of_lt houtputs)]

/-- **At every level of a configuration that feeds cycles, a worker that waits has fed the next one.** -/
theorem Holds.fed (hh : Holds c h b) (hc : c.fault? = none) (hl : l.frames * l.outputs = c.cycleSamples)
    (hfeeds : c.FeedsCycles) : Fed h l b := by
  intro hnext
  obtain ⟨a, ha, hfull⟩ := isFull_of_next hnext
  obtain ⟨e, hb⟩ := hosted_of_active? ha
  obtain ⟨rfl, -⟩ := hh.pours.hosted e a hb
  have hcycle := hfeeds _ hh.stand ((hh.pours.suits.isFull_iff hc).1 hfull)
  refine ⟨?_, block_prefix hl hcycle⟩
  rw [cycle_eq hh.pours hc]
  exact Int.ofNat_le.2 hcycle

theorem Holds.begun (hb : b.Begun c h) (hc : c.fault? = none)
    (hword : c.engine.blockFrames * c.engine.outputs < 2 ^ 31) : Holds c h b := by
  obtain ⟨hp, hempty, -⟩ := hb.pours hc hword
  refine ⟨hp, ?_⟩
  rw [← Ring.length_contents, hempty]
  exact .empty

/-- **In realtime performances from a configuration, a worker that waits has always fed the next cycle exactly if
the configuration feeds cycles**, or if the engine refuses them because a single block is too large.  A
configuration with a software buffer that is not below zero does, if a word has room for both buffers together; any
other with room for every block does exactly if its mark is less than a greatest common divisor of block and cycle
below a cycle. -/
theorem fed_iff (c : Config) (hc : c.validate = .ok ())
    (hword : c.engine.blockFrames * c.engine.outputs < 2 ^ 31) :
    ((∀ h b, Begun c h b → ∀ events, Fed h (loop h b) (final (serve h (loop h b)) events b)) ↔
      (c.blockSamples ≤ c.buffers.ringSamples → c.FeedsCycles)) ∧
    (0 ≤ c.engine.softwareFrames → c.engine.hardwareFrames + c.engine.softwareFrames < 2 ^ 31 → c.FeedsCycles) ∧
    (c.HasRoom →
      (c.FeedsCycles ↔ c.cycleSamples < c.markSamples + Nat.gcd c.blockSamples c.cycleSamples)) := by
  have hc' := Config.validate_eq_ok_iff.1 hc
  refine ⟨⟨?_, ?_⟩, Config.feedsCycles_of_ahead hc', Config.feedsCycles_iff hc'⟩
  · intro hfed hfits v hv hmark
    obtain ⟨h, b, hbegun, hready⟩ := exists_ready hc' hword hfits
    have hempty := (hbegun.pours hc' hword).2.1
    obtain ⟨events, hready', hunread⟩ := exists_stand hready hempty hc' (loop_cycle hready.pours) hv
    obtain ⟨hcycle, -⟩ := hfed h b hbegun events (hready'.next_eq hc' (by rwa [hunread]))
    rw [cycle_eq hready'.pours hc'] at hcycle
    exact hunread ▸ Int.ofNat_le.1 hcycle
  · intro hfeeds h b hbegun events
    have hholds := Holds.begun hbegun hc' hword
    have hl := loop_cycle hholds.pours
    have hrun : Holds c h (final (serve h (loop h b)) events b) :=
      final_invariant (P := Holds c h) (fun event _ hh => hh.serve hc' hl event) hholds events
    exact hrun.fed hc' hl (hfeeds (hbegun.pours hc' hword).2.2)

/-- A cycle of four samples with a software buffer of two samples below zero. -/
def short : Config where
  buffers := { maxChannels := 1, maxHardwareFrames := 4 }
  engine := { blockFrames := 1, outputs := 1, hardwareFrames := 4, softwareFrames := -2 }

/-- It can be used, and its worker waits at two samples. -/
theorem fed_iff_short :
    short.validate = .ok () ∧ short.engine.blockFrames * short.engine.outputs < 2 ^ 31 ∧
      ¬ ∀ h b, Begun short h b → ∀ events, Fed h (loop h b) (final (serve h (loop h b)) events b) := by
  have hvalid : short.validate = .ok () := rfl
  have hword : short.engine.blockFrames * short.engine.outputs < 2 ^ 31 := by decide
  obtain ⟨hiff, -, -⟩ := fed_iff short hvalid hword
  refine ⟨hvalid, hword, fun hfed => ?_⟩
  have hfirst : Stand short.blockSamples short.cycleSamples short.markSamples short.buffers.ringSamples 1 :=
    .fill .empty (by decide)
  have hsecond : Stand short.blockSamples short.cycleSamples short.markSamples short.buffers.ringSamples 2 :=
    .fill hfirst (by decide)
  exact absurd (hiff.1 hfed (by decide) 2 hsecond (by decide)) (by decide)

end OutputPath
end SynthControl
