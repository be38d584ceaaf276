import SynthControl.Proofs.Callbacks
import SynthControl.Proofs.Upkeep

/-!
# The words that tell of a performance

While a performance runs the worker holds a word of its region raised, `performing` or `rendering` by its mode.
The others read it to find out whether there is something to pause, so it must not stay raised when nothing
runs.

* `Memory.Shows`, `Calms` — a region tells of a performance of a mode; a change after which no region tells of
  more;
* `Memory.Tells`, `Dims` — the same of the word `performing` alone;
* `Lit` — a region that tells of a performance is the region of the one that runs;
* `Engine.RefusesQuietly` — an engine that refuses a start does not raise the word;
* `step_lit`, `handle_lit` — **the worker keeps the word in line with what it performs**;
* `calms_law` — **the device raises the words nowhere** that its callbacks do not;
* `Hooks.Quiet`, `Device.Quiet`, `Outlets.Quiet` — callbacks that do not raise `performing`.
-/

namespace SynthControl

namespace Memory

/-- A region tells of a performance of a mode. -/
def Shows (mode : Mode) (m : Memory) (i : Nat) : Prop := (m.region i).get mode.busy = 1

/-- After a change no region tells of a performance of a mode that did not before. -/
def Calms (mode : Mode) (m m' : Memory) : Prop := ∀ i, m'.Shows mode i → m.Shows mode i

/-- A region tells of a performance. -/
def Tells (m : Memory) (i : Nat) : Prop := (m.region i).get .performing = 1

/-- After a change no region tells of a performance that did not before. -/
def Dims (m m' : Memory) : Prop := ∀ i, m'.Tells i → m.Tells i

theorem Dims.refl (m : Memory) : Dims m m := fun _ h => h

theorem Dims.trans {m m' m'' : Memory} (h : Dims m m') (h' : Dims m' m'') : Dims m m'' :=
  fun i hi => h i (h' i hi)

section

variable (mode : Mode)

/-- A region that was never allocated tells of nothing. -/
theorem lt_of_shows {m : Memory} {i : Nat} (h : m.Shows mode i) : i < m.regions.size := by
  refine Nat.lt_of_not_le ?_
  intro hi
  have hr : m.region i = Region.fresh := by
    rw [region, Array.getD_eq_getD_getElem?, Array.getElem?_eq_none hi]
    rfl
  rw [Shows, hr] at h
  cases mode <;> exact absurd h (by decide)

theorem shows_modifyRegion {m : Memory} {i j : Nat} {f : Region → Region}
    (h : (m.modifyRegion i f).Shows mode j) :
    (j ≠ i ∧ m.Shows mode j) ∨ (j = i ∧ (f (m.region i)).get mode.busy = 1) := by
  by_cases hj : j = i
  · subst hj
    refine .inr ⟨rfl, ?_⟩
    have hlt := lt_of_shows mode h
    rw [modifyRegion, Array.size_modify] at hlt
    rw [Shows, region_modifyRegion_same m f hlt] at h
    exact h
  · rw [Shows, region_modifyRegion_other m f (Ne.symm hj)] at h
    exact .inl ⟨hj, h⟩

theorem shows_setIo {m : Memory} {h : Handle} {io : Io} {j : Nat} (ht : (m.setIo h io).Shows mode j) :
    (j ≠ h.region ∧ m.Shows mode j) ∨ (j = h.region ∧ io.region.get mode.busy = 1) :=
  shows_modifyRegion mode (f := fun _ => io.region) ht

theorem calms_allocRegion (m : Memory) : Calms mode m m.allocRegion.2 := by
  intro i h
  have hlt := lt_of_shows mode h
  rw [allocRegion, Array.size_push] at hlt
  rw [Shows, region, allocRegion] at h
  rw [Array.getD_eq_getD_getElem?, Array.getElem?_push] at h
  by_cases hi : i = m.regions.size
  · rw [if_pos hi] at h
    cases mode <;> exact absurd h (by decide)
  · rw [if_neg hi] at h
    rw [Shows, region, Array.getD_eq_getD_getElem?]
    exact h

theorem calms_modifyRegion (m : Memory) (i : Nat) (f : Region → Region)
    (hf : (f (m.region i)).get mode.busy = 1 → (m.region i).get mode.busy = 1) :
    Calms mode m (m.modifyRegion i f) := by
  intro j h
  rcases shows_modifyRegion mode h with ⟨-, h⟩ | ⟨rfl, h⟩
  · exact h
  · exact hf h

theorem calms_setIo (m : Memory) (h : Handle) (io : Io)
    (hf : io.region.get mode.busy = 1 → (m.region h.region).get mode.busy = 1) :
    Calms mode m (m.setIo h io) := by
  intro j ht
  rcases shows_setIo mode ht with ⟨-, hm⟩ | ⟨rfl, hio⟩
  · exact hm
  · exact hf hio

end

theorem lt_of_tells {m : Memory} {i : Nat} (h : m.Tells i) : i < m.regions.size :=
  lt_of_shows .realtime h

theorem dims_allocRegion (m : Memory) : Dims m m.allocRegion.2 := calms_allocRegion .realtime m

theorem dims_modifyRegion (m : Memory) (i : Nat) (f : Region → Region)
    (hf : (f (m.region i)).get .performing = 1 → (m.region i).get .performing = 1) :
    Dims m (m.modifyRegion i f) := calms_modifyRegion .realtime m i f hf

end Memory

open Memory

/-- An engine that refuses a start does not raise the word that tells of a performance. -/
def Engine.RefusesQuietly {φ σ : Type} (E : Engine φ σ) : Prop :=
  ∀ (io left : Io) (e e' : σ) (r : Attempt Int), E.start io e = (r, e', left) → r ≠ .ok 0 →
    left.region.get .performing = 1 → io.region.get .performing = 1

/-! ### The worker -/

namespace Bench

variable {φ σ : Type} {E : Engine φ σ} {b c : Bench φ σ}

/-- A region that tells of a performance is the region of the one that runs. -/
def Lit (b : Bench φ σ) : Prop := ∀ i, b.memory.Tells i → ∃ a, b.active? = some a ∧ a.io.region = i

theorem Lit.congr (h : Lit b) (hm : c.memory = b.memory) (ha : c.active? = b.active?) : Lit c := by
  rw [Lit]
  rw [hm, ha]
  exact h

theorem Lit.dims (h : Lit b) (hm : Dims b.memory c.memory) (ha : c.active? = b.active?) : Lit c := by
  intro i hi
  rw [ha]
  exact h i (hm i hi)

/-- Whatever the engine writes, it writes in the region of the performance. -/
theorem lit_keeps (hq : E.RefusesQuietly) :
    E.Keeps fun m o => ∀ i, m.Tells i → ∃ a, o = some a ∧ a.io.region = i where
  begins {m io e e' left} h _ i hi := by
    refine ⟨_, rfl, ?_⟩
    rcases shows_modifyRegion .realtime hi with ⟨hne, ht⟩ | ⟨heq, -⟩
    · rcases shows_setIo .realtime ht with ⟨-, ht⟩ | ⟨heq, -⟩
      · obtain ⟨a, ha, -⟩ := h i ht
        cases ha
      · exact absurd heq hne
    · exact heq.symm
  refuses {m io e e' r left} h hs hr _ i hi := by
    rcases shows_setIo .realtime hi with ⟨-, ht⟩ | ⟨rfl, ht⟩
    · exact h i ht
    · exact h _ (hq _ _ _ _ _ hs hr ht)
  performs {m a e e' r left} h _ _ i hi := by
    rcases shows_setIo .realtime hi with ⟨-, ht⟩ | ⟨heq, -⟩
    · exact h i ht
    · exact ⟨a, rfl, heq.symm⟩
  marks {m a} h i hi := by
    rcases shows_modifyRegion .realtime hi with ⟨-, ht⟩ | ⟨heq, -⟩
    · exact h i ht
    · exact ⟨a, rfl, heq.symm⟩
  unmarks {m a} h i hi := by
    rcases shows_modifyRegion .realtime hi with ⟨-, ht⟩ | ⟨heq, -⟩
    · exact h i ht
    · exact ⟨a, rfl, heq.symm⟩
  ends {m a e e' r left} h _ _ i hi := by
    exfalso
    rcases shows_modifyRegion .realtime hi with ⟨hne, ht⟩ | ⟨-, ht⟩
    · rcases shows_setIo .realtime ht with ⟨-, ht⟩ | ⟨heq, -⟩
      · obtain ⟨a', ha', hi'⟩ := h i ht
        obtain rfl := Option.some.inj ha'
        exact hne hi'.symm
      · exact hne heq
    · rw [Mode.busy, Region.get_set_other _ _ (by decide), Region.get_set_same] at ht
      exact absurd ht (by decide)

/-- **A step keeps the word in line with what is performed.** -/
theorem step_lit (hq : E.RefusesQuietly) (notified : Bool) (h : Lit b)
    (hl : (b.step E notified).life ≠ .crashed) : Lit (b.step E notified) :=
  step_keeps (lit_keeps hq) notified h hl

/-- **A request keeps the word in line with what is performed.** -/
theorem handle_lit (hq : E.RefusesQuietly) (r : Request) (h : Lit b)
    (hl : (b.handle E r).2.life ≠ .crashed) : Lit (b.handle E r).2 :=
  handle_keeps (lit_keeps hq) r h hl

end Bench

/-! ### The device -/

namespace Io

/-- After a change a region and its rings tell of no performance of a mode that they did not tell of before. -/
def Calms (mode : Mode) (io io' : Io) : Prop :=
  io'.region.get mode.busy = 1 → io.region.get mode.busy = 1

/-- After a change a region and its rings tell of no performance that they did not tell of before. -/
def Dims (io io' : Io) : Prop :=
  io'.region.get .performing = 1 → io.region.get .performing = 1

end Io

namespace Render

/-- **The device raises the words nowhere that its callbacks do not.** -/
theorem calms_law (mode : Mode) : Law (Io.Calms mode) (Io.Calms mode) (Memory.Calms mode) where
  hooks_refl _ := id
  hooks_trans h h' := h ∘ h'
  of_hooks := id
  trans h h' := h ∘ h'
  deliver {io c} h hx := by
    refine h ?_
    rw [Loop.delivered] at hx
    dsimp only at hx
    rwa [Region.add, Region.get_set_other _ _ (by cases mode <;> decide),
      Region.get_set_other _ _ (by cases mode <;> decide)] at hx
  output _ _ := id
  input _ _ := id
  mark io hx := by
    rw [Loop.mark, Region.raise] at hx
    dsimp only at hx
    rwa [Region.get_notify, Region.get_set_other _ _ (by cases mode <;> decide)] at hx
  memory_refl _ _ := id
  memory_trans h h' i hi := h i (h' i hi)
  setIo m h io hr := calms_setIo mode m h io hr
  reset m i := by
    refine calms_modifyRegion mode m i _ ?_
    intro hx
    rw [Region.get_reset] at hx
    cases mode <;> exact absurd hx (by decide)
  halt m i := by
    refine calms_modifyRegion mode m i _ ?_
    intro hx
    rwa [Region.get_notify, Region.get_set_other _ _ (by cases mode <;> decide)] at hx

/-- The same of the word `performing` alone. -/
theorem dims_law : Law Io.Dims Io.Dims Memory.Dims := calms_law .realtime

variable {ω : Type}

/-- Callbacks that do not raise the word. -/
structure Hooks.Quiet (h : Hooks ω) : Prop where
  midi : ∀ f, h.midi = some f → ∀ m w (io : Io), io.Dims (f m w io).io
  sink : ∀ f, h.sink = some f → ∀ xs n w (io : Io), io.Dims (f xs n w io).io
  source : ∀ f, h.source = some f → ∀ xs n w (io : Io), io.Dims (f xs n w io).2.io

theorem Hooks.quiet_iff {h : Hooks ω} : h.Quiet ↔ h.Keep Io.Dims :=
  ⟨fun q => ⟨q.midi, q.sink, q.source⟩, fun k => ⟨k.midi, k.sink, k.source⟩⟩

/-- A device whose callbacks, lent or not, do not raise the word. -/
structure Device.Quiet (d : Device ω) : Prop where
  hooks : ∀ h, d.hooks = some h → h.Quiet
  loop : ∀ l, d.loop = some l → l.hooks.Quiet

theorem Device.quiet_iff {d : Device ω} : d.Quiet ↔ d.Keep Io.Dims := by
  constructor
  · intro q
    exact ⟨fun h hh => Hooks.quiet_iff.1 (q.hooks h hh), fun l hl => Hooks.quiet_iff.1 (q.loop l hl)⟩
  · intro k
    exact ⟨fun h hh => Hooks.quiet_iff.2 (k.hooks h hh), fun l hl => Hooks.quiet_iff.2 (k.loop l hl)⟩

end Render

/-! ### The outlets -/

variable {ω : Type}

/-- Outlets whose device is quiet, if there is one. -/
def Outlets.Quiet (o : Outlets ω) : Prop := ∀ d, o.device = some d → d.Quiet

theorem Outlets.quiet_iff {o : Outlets ω} : o.Quiet ↔ o.Keep Io.Dims :=
  forall₂_congr fun _ _ => Render.Device.quiet_iff

theorem Outlets.tick_dims {o : Outlets ω} (hq : o.Quiet) (m : Memory) :
    Dims m (o.tick m).2 ∧ (o.tick m).1.Quiet := by
  obtain ⟨hm, hk⟩ := tick_keeps Render.dims_law (quiet_iff.1 hq) m
  exact ⟨hm, quiet_iff.2 hk⟩

/-- **A phase that is entered raises the word nowhere.** -/
theorem Stage.change_dims {s : Stage (Outlets ω)} (p : PlayState) (hq : s.around.Quiet) :
    Dims s.memory (s.change Outlets.surroundings p).memory ∧
      (s.change Outlets.surroundings p).around.Quiet := by
  obtain ⟨hm, hk⟩ := change_keeps Render.dims_law p (Outlets.quiet_iff.1 hq)
  exact ⟨hm, Outlets.quiet_iff.2 hk⟩

end SynthControl
