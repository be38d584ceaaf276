import SynthControl.Session.Outlets

/-!
# What the device may do, if its callbacks may

A render device runs callbacks that it knows nothing of.  What it does itself is little: it moves the cursor of
the MIDI ring, reads one sample ring and writes the other, marks the boundary of a cycle, and stops a
performance when it is dropped.  So what the callbacks are held to holds of the device, if these few acts are
held to it too.

* `Loop.delivered` — the region after a delivery of MIDI messages;
* `Law` — relations that the callbacks, the device and the memory are held to, and that the acts of the device
  keep;
* `Hooks.Keep`, `Device.Keep`, `Outlets.Keep` — callbacks that keep a relation, wherever they are;
* `Loop.cycle_keeps`, `Device.tick_keeps`, `Outlets.drop_keeps`, `Stage.change_keeps` — **what the device does,
  and what the entry of a phase does, is held to it**.
-/

namespace SynthControl

namespace Render

variable {ω : Type}

/-- Region and rings after the MIDI messages that were queued in `io` were delivered, when the callbacks have
left `c`. -/
def Loop.delivered (io c : Io) : Io :=
  let ring := io.bank.midi
  let n := min (Midi.Ring.pending io.region) ring.capacity
  let next := Midi.Ring.advance ring.slots.size n (Midi.Ring.head io.region % ring.slots.size)
  { c with region := (c.region.set .midiIndex next).add .midiPending (-(n : Int)) }

/-- The callbacks are held to `H`, what the device does to region and rings to `R`, and to the memory to `M`;
and the acts of the device keep that. -/
structure Law (H R : Io → Io → Prop) (M : Memory → Memory → Prop) : Prop where
  hooks_refl (io : Io) : H io io
  hooks_trans {a b c : Io} : H a b → H b c → H a c
  of_hooks {a b : Io} : H a b → R a b
  trans {a b c : Io} : R a b → R b c → R a c
  deliver {io c : Io} : H io c → R io (Loop.delivered io c)
  output (io : Io) (ring : Ring Float) : R io { io with bank.audio.output := ring }
  input (io : Io) (ring : Ring Float) : R io { io with bank.audio.input := ring }
  mark (io : Io) : R io (Loop.mark io)
  memory_refl (m : Memory) : M m m
  memory_trans {m m' m'' : Memory} : M m m' → M m' m'' → M m m''
  setIo (m : Memory) (h : Handle) {io : Io} : R (m.io h) io → M m (m.setIo h io)
  reset (m : Memory) (i : Nat) : M m (m.modifyRegion i Region.reset)
  halt (m : Memory) (i : Nat) : M m (m.modifyRegion i fun r => (r.set .stop 1).notify .paused)

/-- Callbacks that keep a relation of what they find and what they leave. -/
structure Hooks.Keep (H : Io → Io → Prop) (h : Hooks ω) : Prop where
  midi : ∀ f, h.midi = some f → ∀ m w (io : Io), H io (f m w io).io
  sink : ∀ f, h.sink = some f → ∀ xs n w (io : Io), H io (f xs n w io).io
  source : ∀ f, h.source = some f → ∀ xs n w (io : Io), H io (f xs n w io).2.io

/-- Where there are no callbacks there is nothing to keep. -/
theorem Hooks.keep_none (H : Io → Io → Prop) : Hooks.Keep H ({} : Hooks ω) := by
  constructor <;> simp

/-- What keeps a relation keeps a weaker one. -/
theorem Hooks.Keep.mono {H H' : Io → Io → Prop} (hle : ∀ {a b}, H a b → H' a b) {h : Hooks ω} (hk : h.Keep H) :
    h.Keep H' :=
  ⟨fun f hf m w io => hle (hk.midi f hf m w io), fun f hf xs n w io => hle (hk.sink f hf xs n w io),
    fun f hf xs n w io => hle (hk.source f hf xs n w io)⟩

variable {H R : Io → Io → Prop} {M : Memory → Memory → Prop}

section

variable (law : Law H R M)
include law

theorem Law.refl (io : Io) : R io io := law.of_hooks (law.hooks_refl io)

/-! ### A cycle -/

namespace Loop

variable {l : Loop ω}

theorem handRecords_keeps {f : Midi.Message → ω → Io → Called ω} (hf : ∀ m w (io : Io), H io (f m w io).io)
    (n slot : Nat) (c : Called ω) : H c.io (handRecords f n slot c).io := by
  induction n generalizing slot c with
  | zero => exact law.hooks_refl _
  | succ n ih =>
    rw [handRecords]
    split
    · exact law.hooks_refl _
    · exact law.hooks_trans (hf _ _ _) (ih _ _)

theorem drainTo_keeps {f : Midi.Message → ω → Io → Called ω} (hf : ∀ m w (io : Io), H io (f m w io).io)
    (w : ω) (io : Io) : R io (drainTo f w io).io := by
  rw [drainTo]
  dsimp only
  split
  · exact law.refl io
  · have hrecords := handRecords_keeps law hf (min (Midi.Ring.pending io.region) io.bank.midi.capacity)
      (Midi.Ring.head io.region % io.bank.midi.slots.size) ⟨w, io, false⟩
    split
    · exact law.of_hooks hrecords
    · exact law.deliver hrecords

theorem deliver_keeps (hq : l.hooks.Keep H) (w : ω) (io : Io) : R io (l.deliver w io).io := by
  rw [deliver]
  split
  · next f _ hf => exact drainTo_keeps law (hq.midi f hf) w io
  · exact law.refl io

theorem emit_keeps (hq : l.hooks.Keep H) (w : ω) (io : Io) : R io (l.emit w io).io := by
  have hblock : R io (l.block io).2 := law.output io _
  rw [emit]
  dsimp only
  split
  · next f hf => exact law.trans hblock (law.of_hooks (hq.sink f hf _ _ w _))
  · exact hblock

theorem absorb_keeps (hq : l.hooks.Keep H) (w : ω) (io : Io) :
    R io (l.absorb w io).2.io ∧ (l.absorb w io).1.hooks = l.hooks := by
  have hwrite (samples : List Float) (io : Io) : R io (writeInput samples io) := law.input io _
  rw [absorb]
  split
  · exact ⟨law.refl io, rfl⟩
  · split
    · exact ⟨hwrite _ io, rfl⟩
    · next f hf =>
      have hs := law.of_hooks (hq.source f hf l.input l.inputs w io)
      dsimp only
      split
      · exact ⟨hs, rfl⟩
      · exact ⟨law.trans hs (hwrite _ _), rfl⟩

/-- **A cycle is held to what the callbacks are held to.** -/
theorem cycle_keeps (hq : l.hooks.Keep H) (w : ω) (io : Io) :
    R io (l.cycle w io).2.2.2 ∧ (l.cycle w io).2.1.hooks = l.hooks := by
  have hd := deliver_keeps law hq w io
  have he := law.trans hd (emit_keeps law hq (l.deliver w io).world (l.deliver w io).io)
  have ha := absorb_keeps law hq (l.emit (l.deliver w io).world (l.deliver w io).io).world
    (l.emit (l.deliver w io).world (l.deliver w io).io).io
  rw [cycle]
  dsimp only
  split
  · exact ⟨hd, rfl⟩
  · split
    · exact ⟨he, rfl⟩
    · split
      · exact ⟨law.trans he ha.1, ha.2⟩
      · exact ⟨law.trans (law.trans he ha.1) (law.mark _), ha.2⟩

theorem turn_keeps (hq : l.hooks.Keep H) (w : ω) (io : Io) :
    R io (l.turn w io).2.2.2 ∧ (l.turn w io).2.1.hooks = l.hooks := by
  rw [turn]
  split
  · exact ⟨law.refl io, rfl⟩
  · exact cycle_keeps law hq w io
  · exact ⟨law.refl io, rfl⟩

end Loop
end

/-! ### The device -/

/-- A device whose callbacks, lent or not, keep a relation. -/
structure Device.Keep (H : Io → Io → Prop) (d : Device ω) : Prop where
  hooks : ∀ h, d.hooks = some h → h.Keep H
  loop : ∀ l, d.loop = some l → l.hooks.Keep H

namespace Device

variable {d : Device ω}

theorem Keep.mono {H' : Io → Io → Prop} (hle : ∀ {a b}, H a b → H' a b) (hk : d.Keep H) : d.Keep H' :=
  ⟨fun h hh => (hk.hooks h hh).mono hle, fun l hl => (hk.loop l hl).mono hle⟩

theorem create_keep {h : Hooks ω} (hk : h.Keep H) (realtimeClock : Bool) : (create realtimeClock h).Keep H := by
  refine ⟨fun h' hh => ?_, by simp [create]⟩
  obtain rfl := Option.some.inj hh
  exact hk

theorem collect_keep (hq : d.Keep H) : d.collect.2.Keep H := by
  rw [collect]
  split
  · exact hq
  · next l hl =>
    split
    · refine ⟨fun h hh => ?_, by simp⟩
      obtain rfl := Option.some.inj hh
      exact Hooks.keep_none H
    · refine ⟨fun h hh => ?_, by simp⟩
      obtain rfl := Option.some.inj hh
      exact hq.loop l hl

theorem spawn_keep (hq : d.Keep H) : d.spawn.2.Keep H := by
  rw [spawn]
  split
  · exact hq
  · split
    · exact hq
    · next h hh =>
      refine ⟨by simp, fun l hl => ?_⟩
      obtain rfl := Option.some.inj hl
      exact hq.hooks h hh

theorem configure_keep (p : Parameters) (hq : d.Keep H) : (d.configure p).2.Keep H := by
  rw [configure]
  split
  · exact ⟨hq.hooks, hq.loop⟩
  · exact hq

section

variable (law : Law H R M)
include law

theorem turn_keeps (hq : d.Keep H) (w : ω) (m : Memory) :
    M m (d.turn w m).2.2 ∧ (d.turn w m).1.Keep H := by
  rw [turn]
  split
  · exact ⟨law.memory_refl m, hq⟩
  · next l hl =>
    have ht := Loop.turn_keeps law (hq.loop l hl) w (m.io l.params.io)
    simp only [Memory.onIo_eq]
    refine ⟨law.setIo m l.params.io ht.1, hq.hooks, fun l' hl' => ?_⟩
    obtain rfl := Option.some.inj hl'
    rw [ht.2]
    exact hq.loop l hl

/-- **A tick of the clock is held to what the callbacks are held to.** -/
theorem tick_keeps (hq : d.Keep H) (w : ω) (m : Memory) :
    M m (d.tick w m).2.2 ∧ (d.tick w m).1.Keep H := by
  rw [tick]
  split
  · split
    · next l _ =>
      have hd : Keep H { d with asleep := if d.realtimeClock then period l.params else 0 } :=
        ⟨hq.hooks, hq.loop⟩
      exact turn_keeps law hd w m
    · exact ⟨law.memory_refl m, hq⟩
  · exact ⟨law.memory_refl m, hq.hooks, hq.loop⟩

theorem advance_keeps (n : Nat) (hq : d.Keep H) (w : ω) (m : Memory) :
    M m (advance n d w m).2.2 ∧ (advance n d w m).1.Keep H := by
  induction n generalizing d w m with
  | zero => exact ⟨law.memory_refl m, hq⟩
  | succ n ih =>
    rw [advance]
    split
    · exact ⟨law.memory_refl m, hq⟩
    · have ht := turn_keeps law hq w m
      have hn := ih ht.2 (d.turn w m).2.1 (d.turn w m).2.2
      exact ⟨law.memory_trans ht.1 hn.1, hn.2⟩

theorem join_keeps (hq : d.Keep H) (w : ω) (m : Memory) :
    M m (d.join w m).2.2.2 ∧ (d.join w m).2.1.Keep H := by
  have ha := advance_keeps law patience hq w m
  exact ⟨ha.1, collect_keep ha.2⟩

theorem follow_keeps (p : PlayState) (hq : d.Keep H) (w : ω) (m : Memory) :
    M m (d.follow p w m).2.2.2 ∧ (d.follow p w m).2.1.Keep H := by
  have hj := join_keeps law hq w m
  unfold follow
  split
  · split
    · next e r hr =>
      rw [hr] at hj
      exact hj
    · next d' w' m' hr =>
      rw [hr] at hj
      exact ⟨hj.1, spawn_keep hj.2⟩
  · exact hj
  · exact hj
  · exact hj
  · exact ⟨law.memory_refl m, hq⟩

theorem drop_keeps (hq : d.Keep H) (w : ω) (m : Memory) :
    M m (d.drop w m).2.2 ∧ (d.drop w m).1.Keep H := by
  rw [drop]
  cases d.params with
  | none => exact join_keeps law hq w m
  | some p =>
    have hj := join_keeps law hq w (m.modifyRegion p.io.region fun r => (r.set .stop 1).notify .paused)
    exact ⟨law.memory_trans (law.halt m _) hj.1, hj.2⟩

end
end Device
end Render

open Render

/-! ### The outlets -/

namespace Outlets

variable {ω : Type} {H R : Io → Io → Prop} {M : Memory → Memory → Prop} {o : Outlets ω}

/-- Outlets whose device keeps a relation, if there is one. -/
def Keep (H : Io → Io → Prop) (o : Outlets ω) : Prop := ∀ d, o.device = some d → d.Keep H

theorem Keep.mono {H' : Io → Io → Prop} (hle : ∀ {a b}, H a b → H' a b) (hk : o.Keep H) : o.Keep H' :=
  fun d hd => (hk d hd).mono hle

theorem configure_keep (p : Parameters) (hq : o.Keep H) : (o.configure p).2.Keep H := by
  rw [configure]
  split
  · exact hq
  · next d hd =>
    intro d' hd'
    obtain rfl := Option.some.inj hd'
    exact Device.configure_keep p (hq d hd)

variable (law : Law H R M)
include law

theorem follow_keeps (p : PlayState) (hq : o.Keep H) (m : Memory) :
    M m (o.follow p m).2.2 ∧ (o.follow p m).2.1.Keep H := by
  rw [follow]
  split
  · exact ⟨law.memory_refl m, hq⟩
  · next d hd =>
    have hf := Device.follow_keeps law p (hq d hd) o.world m
    refine ⟨hf.1, fun d' hd' => ?_⟩
    obtain rfl := Option.some.inj hd'
    exact hf.2

theorem tick_keeps (hq : o.Keep H) (m : Memory) : M m (o.tick m).2 ∧ (o.tick m).1.Keep H := by
  rw [tick]
  split
  · exact ⟨law.memory_refl m, hq⟩
  · next d hd =>
    have ht := Device.tick_keeps law (hq d hd) o.world m
    refine ⟨ht.1, fun d' hd' => ?_⟩
    obtain rfl := Option.some.inj hd'
    exact ht.2

theorem drop_keeps (hq : o.Keep H) (m : Memory) : M m (o.drop m).2 ∧ (o.drop m).1.Keep H := by
  rw [drop]
  split
  · exact ⟨law.memory_refl m, hq⟩
  · next d hd =>
    have ht := Device.drop_keeps law (hq d hd) o.world m
    refine ⟨ht.1, fun d' hd' => ?_⟩
    obtain rfl := Option.some.inj hd'
    exact ht.2

end Outlets

/-! ### The stage -/

namespace Stage

variable {ω : Type} {H R : Io → Io → Prop} {M : Memory → Memory → Prop} {s : Stage (Outlets ω)}
  (law : Law H R M)
include law

theorem prepare_keeps (p : PlayState) (hq : s.around.Keep H) :
    M s.memory (s.prepare Outlets.surroundings p).memory ∧
      (s.prepare Outlets.surroundings p).around.Keep H := by
  cases p with
  | stopped => exact ⟨law.memory_refl _, hq⟩
  | realtimeStarted => exact ⟨law.memory_refl _, Outlets.configure_keep _ hq⟩
  | realtimePaused => exact ⟨law.memory_refl _, hq⟩
  | realtimeResumed => exact ⟨law.memory_refl _, hq⟩
  | realtimeEnded => exact ⟨law.reset s.memory _, hq⟩
  | renderStarted => exact ⟨law.memory_refl _, hq⟩
  | renderEnded => exact ⟨law.reset s.memory _, hq⟩

theorem complete_keeps (p : PlayState) (s : Stage (Outlets ω)) :
    M s.memory (s.complete p).memory ∧ (s.complete p).around = s.around := by
  rw [complete]
  dsimp only
  split
  · exact ⟨law.reset s.memory _, rfl⟩
  · exact ⟨law.memory_refl _, rfl⟩

/-- **The entry of a phase is held to what the callbacks are held to.** -/
theorem change_keeps (p : PlayState) (hq : s.around.Keep H) :
    M s.memory (s.change Outlets.surroundings p).memory ∧
      (s.change Outlets.surroundings p).around.Keep H := by
  let s₁ : Stage (Outlets ω) := { s with transport := { s.transport with current := p } }
  have hp := prepare_keeps (s := s₁) law p hq
  have hf := Outlets.follow_keeps law p hp.2 (s₁.prepare Outlets.surroundings p).memory
  have hc := complete_keeps law p ((s₁.prepare Outlets.surroundings p).follow Outlets.surroundings p)
  refine ⟨law.memory_trans (law.memory_trans hp.1 hf.1) hc.1, ?_⟩
  show (((s₁.prepare Outlets.surroundings p).follow Outlets.surroundings p).complete p).around.Keep H
  rw [hc.2]
  exact hf.2

end Stage
end SynthControl
