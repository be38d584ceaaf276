import SynthControl.SampleRing
import SynthControl.Midi

/-!
# Shared memory

What control side, engine and render loop share: regions, of which a reset allocates a fresh one, and
banks of rings.

* `Bank`, `Io` — the rings; the rings with a region;
* `Memory` — all regions and banks, which are never freed;
* `Handle` — names a region and a bank; `Memory.io` reads them, `Memory.setIo` writes them back.

Main statements: `region_modifyRegion_same`, `region_modifyRegion_other` (a change of one region is no
change of another).
-/

namespace SynthControl

/-- The rings of one performance setup. -/
structure Bank where
  audio : AudioRings
  midi : Midi.Ring

/-- An empty bank. -/
def Bank.create (samples messages : Nat) : Bank := ⟨.create samples, .create messages⟩

instance : Inhabited Bank := ⟨.create 1 1⟩

/-- What an engine sees of the shared memory while it performs. -/
structure Io where
  region : Region
  bank : Bank

/-- The name of a region and a bank. -/
structure Handle where
  /-- Number of the region. -/
  region : Nat
  /-- Number of the bank. -/
  bank : Nat
  deriving DecidableEq, Repr

/-- Every region and bank that was ever allocated. -/
structure Memory where
  /-- The regions, oldest first. -/
  regions : Array Region := #[]
  /-- The banks, oldest first. -/
  banks : Array Bank := #[]

namespace Memory

/-- The region of a number. -/
def region (m : Memory) (i : Nat) : Region := m.regions.getD i .fresh

/-- The bank of a number. -/
def bank (m : Memory) (i : Nat) : Bank := m.banks.getD i default

/-- Change a region. -/
def modifyRegion (m : Memory) (i : Nat) (f : Region → Region) : Memory :=
  { m with regions := m.regions.modify i f }

/-- Change a bank. -/
def modifyBank (m : Memory) (i : Nat) (f : Bank → Bank) : Memory :=
  { m with banks := m.banks.modify i f }

/-- Allocate a fresh region. -/
def allocRegion (m : Memory) : Nat × Memory :=
  (m.regions.size, { m with regions := m.regions.push .fresh })

/-- Allocate an empty bank. -/
def allocBank (m : Memory) (samples messages : Nat) : Nat × Memory :=
  (m.banks.size, { m with banks := m.banks.push (.create samples messages) })

/-- A fresh region with an empty bank. -/
def allocIo (m : Memory) (samples messages : Nat) : Handle × Memory :=
  let (r, m) := m.allocRegion
  let (b, m) := m.allocBank samples messages
  (⟨r, b⟩, m)

/-- The region and the bank of a handle. -/
def io (m : Memory) (h : Handle) : Io := ⟨m.region h.region, m.bank h.bank⟩

/-- Write a region and a bank back. -/
def setIo (m : Memory) (h : Handle) (io : Io) : Memory :=
  (m.modifyRegion h.region fun _ => io.region).modifyBank h.bank fun _ => io.bank

/-- Change what a handle names, with a result.  The bank is taken out of its place meanwhile, so that
it is not copied. -/
def onIo {α : Type} (m : Memory) (h : Handle) (f : Io → α × Io) : α × Memory :=
  let region := m.region h.region
  let bank := m.bank h.bank
  let banks := m.banks.setIfInBounds h.bank default
  let (a, io) := f ⟨region, bank⟩
  (a, ⟨m.regions.setIfInBounds h.region io.region, banks.setIfInBounds h.bank io.bank⟩)

/-! ### Reading what was written -/

theorem region_modifyRegion_same (m : Memory) {i : Nat} (f : Region → Region)
    (h : i < m.regions.size) : (m.modifyRegion i f).region i = f (m.region i) := by
  simp [modifyRegion, region, Array.getD, h, Array.getElem_modify]

/-- An entry that was replaced is an entry that was changed to a constant. -/
theorem setIfInBounds_eq_modify {α : Type} (xs : Array α) (i : Nat) (a : α) :
    xs.setIfInBounds i a = xs.modify i fun _ => a := by
  apply Array.ext_getElem?
  intro j
  rw [Array.getElem?_setIfInBounds, Array.getElem?_modify]
  by_cases h : i = j
  · subst h
    by_cases hi : i < xs.size <;> simp [hi]
  · simp [h]

/-- A change with a result is the change of what was read, written back. -/
theorem onIo_eq {α : Type} (m : Memory) (h : Handle) (f : Io → α × Io) :
    m.onIo h f = ((f (m.io h)).1, m.setIo h (f (m.io h)).2) := by
  simp [onIo, io, setIo, modifyRegion, modifyBank, ← setIfInBounds_eq_modify]

theorem region_modifyRegion_other (m : Memory) {i j : Nat} (f : Region → Region) (h : i ≠ j) :
    (m.modifyRegion i f).region j = m.region j := by
  simp only [modifyRegion, region, Array.getD_eq_getD_getElem?, Array.getElem?_modify]
  simp [h]

/-- A region that was reset shows its initial words, and so does one that was never allocated. -/
theorem get_modifyRegion_reset (m : Memory) (i : Nat) (f : Field) :
    ((m.modifyRegion i Region.reset).region i).get f = f.initial := by
  by_cases h : i < m.regions.size
  · rw [region_modifyRegion_same m _ h, Region.get_reset]
  · have hfresh : (m.modifyRegion i Region.reset).region i = Region.fresh := by
      simp [modifyRegion, region, Array.getD, h]
    rw [hfresh]
    cases f <;> rfl

end Memory
end SynthControl
