import SynthControl.Proofs.MidiQueue
import SynthControl.Proofs.Performing

/-!
# What the words of a region may hold

The region says nowhere which values a word may hold, and whoever reads a word trusts the others.  This is what
they may hold, for MIDI rings of at most `c` messages, and it is a property of each word by itself but for the
two that tell of a performance.

* `Region.WellFormed` — a region whose words hold what they may;
* `Field.Admits`, `Region.Sound` — the same word by word; `Region.wellFormed_iff`;
* `Midi.Ring.Fits` — a ring of at most `c` messages; `Fits.enqueue`, `Fits.taken` — **a message that is queued,
  and messages that are taken out, leave a sound region**;
* `Io.Sound`, `Memory.Sound` — the same for a region with its rings, and for all of the memory;
* `Io.Aside` — callbacks that keep away from region and MIDI ring;
* `sound_law` — **with such callbacks the device keeps the memory sound**.
-/

namespace SynthControl

/-- The words that hold zero or one. -/
def flagWords : List Field := [.performing, .rendering, .paused, .stop, .wantsInput, .wantsMidi, .cycle]

/-- What the words of a region may hold, next to MIDI rings of at most `c` messages. -/
structure Region.WellFormed (c : Nat) (r : Region) : Prop where
  flag : ∀ f ∈ flagWords, r.get f = 0 ∨ r.get f = 1
  single : ¬ (r.get .performing = 1 ∧ r.get .rendering = 1)
  pending : 0 ≤ r.get .midiPending ∧ r.get .midiPending ≤ c
  /-- The slot at which a record begins. -/
  index : (Midi.recordSize : Int) ∣ r.get .midiIndex ∧ 0 ≤ r.get .midiIndex ∧
    r.get .midiIndex < (Midi.recordSize * c : Nat)
  layout : r.get .layout = layoutVersion

/-! ### Word by word -/

/-- What a word may hold. -/
def Field.Admits (c : Nat) : Field → Int → Prop
  | performing, v | rendering, v | paused, v | stop, v | wantsInput, v | wantsMidi, v | cycle, v =>
    v = 0 ∨ v = 1
  | midiPending, v => 0 ≤ v ∧ v ≤ c
  | midiIndex, v => (Midi.recordSize : Int) ∣ v ∧ 0 ≤ v ∧ v < (Midi.recordSize * c : Nat)
  | layout, v => v = layoutVersion
  | sampleRate, _ | blockFrames, _ | outputs, _ | inputs, _ | hardwareFrames, _ | softwareFrames, _ => True

theorem Field.admits_initial {c : Nat} (hc : 0 < c) (f : Field) : f.Admits c f.initial := by
  cases f with
  | midiIndex => exact ⟨Int.dvd_zero _, Int.le_refl 0, Int.natCast_pos.2 (Nat.mul_pos (by decide) hc)⟩
  | _ => simp [Admits, initial]

theorem Field.admits_flag {c : Nat} {f : Field} (hf : f ∈ flagWords) {v : Int} (hv : v = 0 ∨ v = 1) :
    f.Admits c v := by
  simp only [flagWords, List.mem_cons, List.not_mem_nil, or_false] at hf
  rcases hf with rfl | rfl | rfl | rfl | rfl | rfl | rfl <;> exact hv

namespace Region

variable {c : Nat} {r : Region}

/-- Every word holds what it may by itself. -/
def Sound (c : Nat) (r : Region) : Prop := ∀ f : Field, f.Admits c (r.get f)

theorem wellFormed_iff :
    r.WellFormed c ↔ r.Sound c ∧ ¬ (r.get .performing = 1 ∧ r.get .rendering = 1) := by
  constructor
  · intro ⟨hflag, hsingle, hpending, hindex, hlayout⟩
    refine ⟨?_, hsingle⟩
    intro f
    cases f with
    | performing | rendering | paused | stop | wantsInput | wantsMidi | cycle => exact hflag _ (by decide)
    | midiPending => exact hpending
    | midiIndex => exact hindex
    | layout => exact hlayout
    | _ => exact trivial
  · intro ⟨hsound, hsingle⟩
    refine ⟨?_, hsingle, hsound .midiPending, hsound .midiIndex, hsound .layout⟩
    intro f hf
    have h := hsound f
    simp only [flagWords, List.mem_cons, List.not_mem_nil, or_false] at hf
    rcases hf with rfl | rfl | rfl | rfl | rfl | rfl | rfl <;> exact h

theorem sound_fresh (hc : 0 < c) : fresh.Sound c := by
  intro f
  have hf : fresh.get f = f.initial := by cases f <;> rfl
  rw [hf]
  exact f.admits_initial hc

theorem sound_reset (hc : 0 < c) (r : Region) : r.reset.Sound c := by
  intro f
  rw [get_reset]
  exact f.admits_initial hc

theorem Sound.set (h : r.Sound c) {f : Field} {v : Int} (hv : f.Admits c v) : (r.set f v).Sound c := by
  intro g
  by_cases hg : g = f
  · subst hg
    rwa [get_set_same]
  · rw [get_set_other r v hg]
    exact h g

theorem Sound.notify (h : r.Sound c) (f : Field) : (r.notify f).Sound c := h

theorem Sound.setFlag (h : r.Sound c) {f : Field} (hf : f ∈ flagWords) {v : Int} (hv : v = 0 ∨ v = 1) :
    (r.set f v).Sound c :=
  h.set (Field.admits_flag hf hv)

theorem Sound.raise (h : r.Sound c) {f : Field} (hf : f ∈ flagWords) : (r.raise f).Sound c :=
  (h.setFlag hf (.inr rfl)).notify f

theorem Sound.lower (h : r.Sound c) {f : Field} (hf : f ∈ flagWords) : (r.lower f).Sound c :=
  (h.setFlag hf (.inl rfl)).notify f

/-- The unread messages are counted right, as long as the count stays within bounds. -/
theorem Sound.addPending (h : r.Sound c) {d : Int} (h0 : 0 ≤ r.get .midiPending + d)
    (hle : r.get .midiPending + d ≤ c) (hword : c < 2 ^ 31) : (r.add .midiPending d).Sound c := by
  refine h.set ?_
  rw [wrapped_eq (by omega) (by omega)]
  exact ⟨h0, hle⟩

end Region

/-! ### Rings -/

namespace Midi.Ring

variable {c : Nat} {ring : Ring} {r : Region}

/-- A ring of at most `c` messages, and of one at least. -/
structure Fits (c : Nat) (ring : Ring) : Prop where
  positive : 0 < ring.capacity
  capacity_le : ring.capacity ≤ c
  size_eq : ring.slots.size = recordSize * ring.capacity

theorem fits_create (messages : Nat) : (create messages).Fits (max messages 1) :=
  ⟨Nat.lt_of_lt_of_le Nat.one_pos (Nat.le_max_right _ _), Nat.le_refl _, Array.size_replicate⟩

theorem Fits.mono {c' : Nat} (h : ring.Fits c) (hle : c ≤ c') : ring.Fits c' :=
  ⟨h.positive, h.capacity_le.trans hle, h.size_eq⟩

theorem Fits.enqueue_ring (h : ring.Fits c) (r : Region) (m : Message) : (ring.enqueue r m).2.1.Fits c := by
  obtain ⟨hpos, hle, hsize⟩ := h
  rw [enqueue]
  dsimp only
  split
  · exact ⟨hpos, hle, hsize⟩
  · exact ⟨hpos, hle, (size_store _ _ _).trans hsize⟩

/-- **A message that is queued leaves a sound region**: it is counted only where there is room. -/
theorem Fits.enqueue (h : ring.Fits c) (hr : r.Sound c) (hword : recordSize * c < 2 ^ 31) (m : Message) :
    (ring.enqueue r m).2.2.Sound c := by
  have hsmall : c < 2 ^ 31 := by
    rw [recordSize] at hword
    omega
  obtain ⟨h0, -⟩ := hr .midiPending
  have hle := h.capacity_le
  rw [Ring.enqueue]
  dsimp only
  split
  · exact hr
  · next hroom =>
    rw [pending] at hroom
    exact hr.addPending (by omega) (by omega) hsmall

/-- The cursor of a sound region lies at a record of the ring. -/
theorem Fits.head_eq (h : ring.Fits c) (hr : r.Sound c) :
    ∃ k < ring.capacity, head r % ring.slots.size = recordSize * k := by
  obtain ⟨⟨k, hk⟩, h0, -⟩ := hr .midiIndex
  have hhead : head r = recordSize * k.toNat := by
    rw [head, hk, recordSize]
    omega
  refine ⟨k.toNat % ring.capacity, Nat.mod_lt _ h.positive, ?_⟩
  rw [hhead, h.size_eq, Nat.mul_mod_mul_left]

/-- **Messages that are taken out leave a sound region**: the cursor goes on to a record of the ring, and no
more messages are discounted than there were. -/
theorem Fits.taken (h : ring.Fits c) (hr : r.Sound c) (hword : recordSize * c < 2 ^ 31) {n : Nat}
    (hn : n ≤ pending r) :
    ((r.set .midiIndex (advance ring.slots.size n (head r % ring.slots.size))).add .midiPending
      (-(n : Int))).Sound c := by
  have hsmall : c < 2 ^ 31 := by
    rw [recordSize] at hword
    omega
  obtain ⟨h0, hc⟩ := hr .midiPending
  obtain ⟨k, hk, hhead⟩ := h.head_eq hr
  have hindex : Field.midiIndex.Admits c (advance ring.slots.size n (head r % ring.slots.size)) := by
    rw [hhead, h.size_eq, advance_eq ring.capacity n hk]
    have hlast : (k + n) % ring.capacity < c := (Nat.mod_lt _ h.positive).trans_le h.capacity_le
    refine ⟨⟨((k + n) % ring.capacity : Nat), by rw [Int.natCast_mul]⟩, Int.natCast_nonneg _, ?_⟩
    exact Int.ofNat_lt.2 (Nat.mul_lt_mul_of_pos_left hlast (by decide))
  have hcount : (r.set .midiIndex (advance ring.slots.size n (head r % ring.slots.size))).get .midiPending =
      r.get .midiPending := Region.get_set_other _ _ (by decide)
  rw [pending] at hn
  refine (hr.set hindex).addPending ?_ ?_ hsmall
  · rw [hcount]
    omega
  · rw [hcount]
    omega

/-- A drain leaves a sound region. -/
theorem Fits.drain (h : ring.Fits c) (hr : r.Sound c) (hword : recordSize * c < 2 ^ 31) :
    (ring.drain r).2.Sound c := by
  rw [Ring.drain]
  dsimp only
  split
  · exact hr
  · exact h.taken hr hword (Nat.min_le_left _ _)

end Midi.Ring

/-- An operation on ring and region raises no word that tells of a performance. -/
theorem Midi.Op.busy_of_onRing (mode : Mode) (op : Op) {ring : Ring} {r : Region}
    (hx : (op.onRing (ring, r)).2.2.get mode.busy = 1) : r.get mode.busy = 1 := by
  have hpending : mode.busy ≠ .midiPending := by cases mode <;> decide
  have hindex : mode.busy ≠ .midiIndex := by cases mode <;> decide
  cases op with
  | enqueue m =>
    rw [onRing, Ring.enqueue] at hx
    dsimp only at hx
    split at hx
    · exact hx
    · rwa [Region.add, Region.get_set_other _ _ hpending] at hx
  | drain =>
    rw [onRing, Ring.drain] at hx
    dsimp only at hx
    split at hx
    · exact hx
    · rwa [Region.add, Region.get_set_other _ _ hpending, Region.get_set_other _ _ hindex] at hx
  | reset =>
    rw [onRing, Region.get_reset] at hx
    cases mode <;> exact absurd hx (by decide)
  | replace =>
    have hfresh : Region.fresh.get mode.busy = 1 := hx
    cases mode <;> exact absurd hfresh (by decide)

/-! ### The memory -/

/-- A region whose words hold what they may, with a MIDI ring of at most `c` messages. -/
structure Io.Sound (c : Nat) (io : Io) : Prop where
  region : io.region.Sound c
  ring : io.bank.midi.Fits c

namespace Memory

variable {c : Nat} {m : Memory}

/-- Every region and every MIDI ring is sound, those that were never allocated included. -/
structure Sound (c : Nat) (m : Memory) : Prop where
  region : ∀ i, (m.region i).Sound c
  ring : ∀ i, (m.bank i).midi.Fits c

theorem Sound.io (h : m.Sound c) (a : Handle) : (m.io a).Sound c := ⟨h.region _, h.ring _⟩

/-- What is read after an entry was changed: what was there, or at this entry what it was changed to. -/
theorem getD_modify_cases {α : Type} (xs : Array α) (i j : Nat) (f : α → α) (d : α) :
    (xs.modify i f).getD j d = xs.getD j d ∨ (xs.modify i f).getD j d = f (xs.getD i d) := by
  rw [Array.getD_eq_getD_getElem?, Array.getElem?_modify, Array.getD_eq_getD_getElem?,
    Array.getD_eq_getD_getElem?]
  by_cases hj : i = j
  · subst hj
    rw [if_pos rfl]
    cases xs[i]? with
    | none => exact .inl rfl
    | some a => exact .inr rfl
  · rw [if_neg hj]
    exact .inl rfl

theorem Sound.modifyRegion (h : m.Sound c) (i : Nat) {f : Region → Region}
    (hf : (f (m.region i)).Sound c) : (m.modifyRegion i f).Sound c := by
  refine ⟨?_, h.ring⟩
  intro j
  show ((m.regions.modify i f).getD j .fresh).Sound c
  rcases getD_modify_cases m.regions i j f .fresh with hj | hj
  · rw [hj]
    exact h.region j
  · rw [hj]
    exact hf

theorem Sound.modifyBank (h : m.Sound c) (i : Nat) {f : Bank → Bank}
    (hf : (f (m.bank i)).midi.Fits c) : (m.modifyBank i f).Sound c := by
  refine ⟨h.region, ?_⟩
  intro j
  show ((m.banks.modify i f).getD j default).midi.Fits c
  rcases getD_modify_cases m.banks i j f default with hj | hj
  · rw [hj]
    exact h.ring j
  · rw [hj]
    exact hf

theorem Sound.setIo (h : m.Sound c) (a : Handle) {io : Io} (hio : io.Sound c) : (m.setIo a io).Sound c :=
  (h.modifyRegion a.region hio.region).modifyBank a.bank hio.ring

theorem Sound.allocRegion (h : m.Sound c) (hc : 0 < c) : m.allocRegion.2.Sound c := by
  refine ⟨?_, h.ring⟩
  intro i
  show Region.Sound c ((m.regions.push .fresh).getD i .fresh)
  rw [Array.getD_eq_getD_getElem?, Array.getElem?_push]
  split
  · exact Region.sound_fresh hc
  · rw [← Array.getD_eq_getD_getElem?]
    exact h.region i

theorem region_allocIo (samples messages i : Nat) : (allocIo {} samples messages).2.region i = .fresh := by
  cases i <;> rfl

/-- A pristine region and an empty ring are sound. -/
theorem sound_allocIo (samples messages : Nat) : (allocIo {} samples messages).2.Sound (max messages 1) := by
  have hc : 0 < max messages 1 := Nat.lt_of_lt_of_le Nat.one_pos (Nat.le_max_right _ _)
  refine ⟨?_, ?_⟩
  · intro i
    rw [region_allocIo]
    exact Region.sound_fresh hc
  · intro i
    cases i with
    | zero => exact Midi.Ring.fits_create messages
    | succ i => exact (Midi.Ring.fits_create 1).mono (Nat.le_max_right _ _)

end Memory

/-! ### The device -/

/-- A change that keeps away from the region and the MIDI ring. -/
def Io.Aside (io io' : Io) : Prop := io'.region = io.region ∧ io'.bank.midi = io.bank.midi

theorem Io.Aside.sound {io io' : Io} {c : Nat} (ha : io.Aside io') (h : io.Sound c) : io'.Sound c :=
  ⟨ha.1 ▸ h.region, ha.2 ▸ h.ring⟩

theorem Io.Aside.calms {io io' : Io} (mode : Mode) (ha : io.Aside io') : io.Calms mode io' := by
  intro hx
  rwa [ha.1] at hx

/-- **With callbacks that keep away from region and MIDI ring, the device keeps the memory sound.** -/
theorem Render.sound_law {c : Nat} (hc : 0 < c) (hword : Midi.recordSize * c < 2 ^ 31) :
    Law Io.Aside (fun io io' => io.Sound c → io'.Sound c) (fun m m' => m.Sound c → m'.Sound c) where
  hooks_refl _ := ⟨rfl, rfl⟩
  hooks_trans h h' := ⟨h'.1.trans h.1, h'.2.trans h.2⟩
  of_hooks := Io.Aside.sound
  trans h h' := h' ∘ h
  deliver {io left} ha h := by
    refine ⟨?_, ha.2 ▸ h.ring⟩
    rw [Loop.delivered]
    dsimp only
    rw [ha.1]
    exact h.ring.taken h.region hword (Nat.min_le_left _ _)
  output _ _ h := ⟨h.region, h.ring⟩
  input _ _ h := ⟨h.region, h.ring⟩
  mark _ h := ⟨h.region.raise (by decide), h.ring⟩
  memory_refl _ := id
  memory_trans h h' := h' ∘ h
  setIo m a io hio h := h.setIo a (hio (h.io a))
  reset m i h := h.modifyRegion i (Region.sound_reset hc _)
  halt m i h := h.modifyRegion i (((h.region i).setFlag (by decide) (.inr rfl)).notify _)

end SynthControl
