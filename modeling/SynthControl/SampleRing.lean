/-!
# Sample rings

A ring between one writer and one reader.  A write never fails: when the ring is full it overwrites
the oldest unread samples, and the next read skips them.

* `Ring` — the slots, and how many samples were ever written and consumed;
* `write`, `read`, `clear`, `unread` — append, consume up to a number, discard, count;
* `AudioRings` — the pair of rings between the engine and the render loop.

Main statements: `size_storeFrom`, `capacity_write` (the capacity never changes), `unread_le_capacity`,
`unread_clear`.
-/

namespace SynthControl

/-- Write samples into consecutive slots, beginning at a position, around the end. -/
def storeFrom {α : Type} (slots : Array α) (pos : Nat) : List α → Array α
  | [] => slots
  | x :: xs => storeFrom (slots.setIfInBounds (pos % slots.size) x) (pos + 1) xs

/-- Storing keeps the number of slots. -/
@[simp] theorem size_storeFrom {α : Type} (slots : Array α) (pos : Nat) (xs : List α) :
    (storeFrom slots pos xs).size = slots.size := by
  induction xs generalizing slots pos with
  | nil => rfl
  | cons x xs ih => simp [storeFrom, ih]

/-- A ring of samples. -/
structure Ring (α : Type) where
  slots : Array α
  /-- Samples ever written. -/
  written : Nat := 0
  /-- Samples ever consumed. -/
  consumed : Nat := 0
  nonempty : 0 < slots.size

namespace Ring

variable {α : Type}

/-- An empty ring; a capacity of zero counts as one. -/
def create (capacity : Nat) (filler : α) : Ring α :=
  { slots := Array.replicate (max capacity 1) filler
    nonempty := by rw [Array.size_replicate]; omega }

/-- The number of slots. -/
def capacity (r : Ring α) : Nat := r.slots.size

/-- The number of unread samples that were not overwritten. -/
def unread (r : Ring α) : Nat := min (r.written - r.consumed) r.capacity

/-- Append samples, overwriting the oldest unread ones when the ring is full. -/
def write (r : Ring α) (data : List α) : Ring α :=
  { slots := storeFrom r.slots r.written data
    written := r.written + data.length
    consumed := r.consumed
    nonempty := by rw [size_storeFrom]; exact r.nonempty }

/-- The sample that was written at a position, as long as it was not overwritten. -/
def sampleAt (r : Ring α) (pos : Nat) : α :=
  have h : pos % r.slots.size < r.slots.size := Nat.mod_lt _ r.nonempty
  r.slots[pos % r.slots.size]

/-- The position of the oldest sample that can still be read. -/
def oldest (r : Ring α) : Nat := max r.consumed (r.written - r.capacity)

/-- Consume up to `n` samples, oldest first. -/
def read (r : Ring α) (n : Nat) : List α × Ring α :=
  let count := min (r.written - r.oldest) n
  ((List.range count).map fun i => r.sampleAt (r.oldest + i),
    { r with consumed := r.oldest + count })

/-- Discard everything unread. -/
def clear (r : Ring α) : Ring α := { r with consumed := r.written }

/-- The ring as text. -/
def describe (r : Ring α) : String :=
  "AudioRingBuffer \x7b capacity: " ++ toString r.capacity ++ ", available: " ++ toString r.unread
    ++ " \x7d"

@[simp] theorem capacity_write (r : Ring α) (data : List α) :
    (r.write data).capacity = r.capacity := by
  simp [capacity, write]

@[simp] theorem capacity_read (r : Ring α) (n : Nat) : (r.read n).2.capacity = r.capacity := rfl

@[simp] theorem capacity_clear (r : Ring α) : r.clear.capacity = r.capacity := rfl

theorem unread_le_capacity (r : Ring α) : r.unread ≤ r.capacity := Nat.min_le_right _ _

@[simp] theorem unread_clear (r : Ring α) : r.clear.unread = 0 := by
  simp [clear, unread]

end Ring

/-- The rings between the engine and the render loop. -/
structure AudioRings where
  input : Ring Float
  output : Ring Float

namespace AudioRings

/-- Two empty rings of one capacity. -/
def create (capacity : Nat) : AudioRings := ⟨.create capacity 0, .create capacity 0⟩

/-- Discard everything unread in both directions. -/
def clear (a : AudioRings) : AudioRings := ⟨a.input.clear, a.output.clear⟩

end AudioRings
end SynthControl
