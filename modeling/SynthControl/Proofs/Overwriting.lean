import Mathlib.Data.List.DropRight
import SynthControl.Proofs.Runs
import SynthControl.SampleRing

/-!
# A sample ring is an overwriting queue

Inside, a ring keeps two positions that only grow and an array whose slots are used again and again.  From
outside it is a queue with a bound: a write that does not fit pushes the oldest samples out, and nobody can
tell that the reader takes note of that only when it reads.

* `Ring.contents` — the samples that can still be read, oldest first;
* `contents_write`, `contents_read`, `contents_clear` — **each operation is one of the queue**, seen through
  the contents;
* `Ring.Op`, `Op.onRing`, `Op.onQueue` — the operations, on a ring and on a plain list;
* `Holds`, `Holds.step` — a ring holds a queue, and every operation keeps that;
* `Fate`, `Op.fates`, `withFate` — what becomes of the samples, in the order in which they were written;
* `refines_queue` — **a run of operations shows the same on a ring as on the queue**, and every sample that
  was written is delivered, overwritten, discarded or still there, and only one of these.

Samples are of any type: they are handed on as they are.  Positions are natural numbers, so that they never
run out.
-/

namespace SynthControl

variable {α : Type}

/-! ### Slots that are used again -/

/-- Positions that lie less than a round apart have different slots. -/
theorem mod_ne_of_lt_add {n p q : Nat} (hpq : p < q) (hqp : q < p + n) : q % n ≠ p % n := by
  intro h
  have hz : (q - p) % n = 0 := Nat.sub_mod_eq_zero_of_mod_eq h
  have hlt : q - p < n := by omega
  rw [Nat.mod_eq_of_lt hlt] at hz
  omega

/-- Storing leaves the slots of the positions alone that lie before it, but not a whole round. -/
theorem getElem?_storeFrom_before (slots : Array α) (pos : Nat) (xs : List α) {p : Nat}
    (hp : p < pos) (hround : pos + xs.length ≤ p + slots.size) :
    (storeFrom slots pos xs)[p % slots.size]? = slots[p % slots.size]? := by
  induction xs generalizing slots pos with
  | nil => rfl
  | cons x xs ih =>
    rw [List.length_cons] at hround
    have hne : pos % slots.size ≠ p % slots.size := mod_ne_of_lt_add hp (by omega)
    have hsize : (slots.setIfInBounds (pos % slots.size) x).size = slots.size :=
      Array.size_setIfInBounds
    have h := ih (slots.setIfInBounds (pos % slots.size) x) (pos + 1) (by omega)
      (by rw [hsize]; omega)
    rw [hsize] at h
    rw [storeFrom, h, Array.getElem?_setIfInBounds_ne hne]

/-- Storing puts a sample into the slot of its position, unless it comes around to it again. -/
theorem getElem?_storeFrom_at (slots : Array α) (pos : Nat) (xs : List α) (hn : 0 < slots.size)
    {i : Nat} (hi : i < xs.length) (hround : xs.length ≤ i + slots.size) :
    (storeFrom slots pos xs)[(pos + i) % slots.size]? = xs[i]? := by
  induction xs generalizing slots pos i with
  | nil => exact absurd hi (Nat.not_lt_zero i)
  | cons x xs ih =>
    rw [List.length_cons] at hi hround
    have hsize : (slots.setIfInBounds (pos % slots.size) x).size = slots.size :=
      Array.size_setIfInBounds
    rw [storeFrom]
    cases i with
    | zero =>
      -- the other samples go to later positions, and stop before a whole round
      have h := getElem?_storeFrom_before (slots.setIfInBounds (pos % slots.size) x) (pos + 1) xs
        (p := pos) (by omega) (by rw [hsize]; omega)
      rw [hsize] at h
      rw [show pos + 0 = pos from rfl, h, Array.getElem?_setIfInBounds_self_of_lt (Nat.mod_lt _ hn)]
      rfl
    | succ i =>
      have h := ih (slots.setIfInBounds (pos % slots.size) x) (pos + 1) (by rw [hsize]; exact hn)
        (i := i) (by omega) (by rw [hsize]; omega)
      rw [hsize] at h
      rw [show pos + (i + 1) = pos + 1 + i by omega, h, List.getElem?_cons_succ]

namespace Ring

theorem getElem?_slots (r : Ring α) (pos : Nat) :
    r.slots[pos % r.slots.size]? = some (r.sampleAt pos) := by
  rw [Array.getElem?_eq_getElem (Nat.mod_lt _ r.nonempty)]
  rfl

/-- A write leaves the samples alone that were written less than a round ago. -/
theorem sampleAt_write_old (r : Ring α) (data : List α) {pos : Nat} (hp : pos < r.written)
    (hround : r.written + data.length ≤ pos + r.capacity) :
    (r.write data).sampleAt pos = r.sampleAt pos := by
  have h := getElem?_storeFrom_before r.slots r.written data hp hround
  rw [getElem?_slots] at h
  have hw := getElem?_slots (r.write data) pos
  rw [show (r.write data).slots = storeFrom r.slots r.written data from rfl, size_storeFrom, h] at hw
  exact (Option.some.inj hw).symm

/-- The last samples of a write can be read at their positions. -/
theorem sampleAt_write_new (r : Ring α) (data : List α) {i : Nat} (hi : i < data.length)
    (hround : data.length ≤ i + r.capacity) :
    (r.write data).sampleAt (r.written + i) = data[i] := by
  have h := getElem?_storeFrom_at r.slots r.written data r.nonempty hi hround
  have hw := getElem?_slots (r.write data) (r.written + i)
  rw [show (r.write data).slots = storeFrom r.slots r.written data from rfl, size_storeFrom, h,
    List.getElem?_eq_getElem hi] at hw
  exact (Option.some.inj hw).symm

/-! ### The contents -/

/-- The samples that can still be read, oldest first. -/
def contents (r : Ring α) : List α := (List.range r.unread).map fun i => r.sampleAt (r.oldest + i)

/-- Nothing was consumed that was not written. -/
def IsSound (r : Ring α) : Prop := r.consumed ≤ r.written

@[simp] theorem length_contents (r : Ring α) : r.contents.length = r.unread := by
  simp [contents]

theorem getElem_contents (r : Ring α) {i : Nat} (hi : i < r.contents.length) :
    r.contents[i] = r.sampleAt (r.oldest + i) := by
  simp [contents]

/-- What can still be read begins at the oldest position and ends where the next write begins. -/
theorem unread_eq_sub (r : Ring α) : r.unread = r.written - r.oldest := by
  simp only [unread, oldest]
  omega

theorem oldest_le_written {r : Ring α} (h : r.IsSound) : r.oldest ≤ r.written :=
  Nat.max_le.2 ⟨h, Nat.sub_le _ _⟩

theorem isSound_create (capacity : Nat) (x : α) : (create capacity x).IsSound := Nat.le_refl 0

theorem IsSound.write {r : Ring α} (h : r.IsSound) (data : List α) : (r.write data).IsSound :=
  Nat.le_trans h (Nat.le_add_right _ _)

theorem IsSound.read {r : Ring α} (h : r.IsSound) (n : Nat) : (r.read n).2.IsSound := by
  have hle : r.oldest ≤ r.written := oldest_le_written h
  show r.oldest + min (r.written - r.oldest) n ≤ r.written
  omega

theorem isSound_clear (r : Ring α) : r.clear.IsSound := Nat.le_refl _

@[simp] theorem contents_create (capacity : Nat) (x : α) : (create capacity x).contents = [] := by
  simp [contents, unread, create]

/-- **A write appends, and keeps the last samples that the ring has slots for.** -/
theorem contents_write {r : Ring α} (h : r.IsSound) (data : List α) :
    (r.write data).contents = (r.contents ++ data).rtake r.capacity := by
  have hle : r.oldest ≤ r.written := oldest_le_written h
  have hunread : r.unread = r.written - r.oldest := unread_eq_sub r
  have hlost : (r.write data).oldest = r.oldest + (r.unread + data.length - r.capacity) := by
    rw [hunread]
    simp only [oldest, capacity_write] at hle ⊢
    show max r.consumed (r.written + data.length - r.capacity) = _
    omega
  have hlength : (r.write data).unread = min (r.unread + data.length) r.capacity := by
    rw [unread_eq_sub, hlost, hunread]
    show r.written + data.length - _ = _
    omega
  rw [List.rtake, List.length_append, length_contents]
  apply List.ext_getElem
  · simp only [length_contents, List.length_drop, List.length_append, hlength]
    omega
  · intro i hi _
    rw [length_contents, hlength] at hi
    rw [getElem_contents, hlost, List.getElem_drop]
    by_cases hold : r.unread + data.length - r.capacity + i < r.unread
    · rw [List.getElem_append_left (by rwa [length_contents]), getElem_contents, Nat.add_assoc]
      exact sampleAt_write_old r data (by omega) (by omega)
    · rw [List.getElem_append_right (by rw [length_contents]; omega)]
      have hpos : r.oldest + (r.unread + data.length - r.capacity) + i =
          r.written + (r.unread + data.length - r.capacity + i - r.unread) := by omega
      simp only [hpos, length_contents]
      exact sampleAt_write_new r data (by omega) (by omega)

/-- **A read gives the oldest samples.** -/
theorem read_fst (r : Ring α) (n : Nat) : (r.read n).1 = r.contents.take n := by
  show (List.range (min (r.written - r.oldest) n)).map _ = _
  rw [contents, ← List.map_take, List.take_range, ← unread_eq_sub, Nat.min_comm]

/-- **A read removes what it gives.** -/
theorem contents_read (r : Ring α) (n : Nat) : (r.read n).2.contents = r.contents.drop n := by
  have hoverrun : r.written - r.capacity ≤ r.oldest := Nat.le_max_right _ _
  have holdest : (r.read n).2.oldest = r.oldest + min r.unread n := by
    rw [unread_eq_sub]
    show max (r.oldest + min (r.written - r.oldest) n) (r.written - r.capacity) = _
    omega
  have hunread : (r.read n).2.unread = r.unread - n := by
    rw [unread_eq_sub, holdest, unread_eq_sub]
    show r.written - _ = _
    omega
  apply List.ext_getElem
  · rw [length_contents, List.length_drop, length_contents, hunread]
  · intro i hi _
    rw [length_contents, hunread] at hi
    rw [getElem_contents, List.getElem_drop, getElem_contents, holdest, Nat.min_eq_right (by omega),
      Nat.add_assoc]
    rfl

@[simp] theorem contents_clear (r : Ring α) : r.clear.contents = [] := by
  simp [contents]

/-! ### Runs of operations -/

/-- An operation on a queue of samples. -/
inductive Op (α : Type) where
  | write (data : List α)
  | read (n : Nat)
  | clear

namespace Op

/-- What an operation gives, how many samples can be read then, and the ring after it. -/
def onRing : Op α → Ring α → (List α × Nat) × Ring α
  | write data, r => (([], (r.write data).unread), r.write data)
  | read n, r => (((r.read n).1, (r.read n).2.unread), (r.read n).2)
  | clear, r => (([], r.clear.unread), r.clear)

/-- The same of a queue of at most `capacity` samples. -/
def onQueue (capacity : Nat) : Op α → List α → (List α × Nat) × List α
  | write data, q => (([], ((q ++ data).rtake capacity).length), (q ++ data).rtake capacity)
  | read n, q => ((q.take n, (q.drop n).length), q.drop n)
  | clear, _ => (([], 0), [])

/-- The samples that an operation writes. -/
def data : Op α → List α
  | write data => data
  | read _ | clear => []

end Op

/-- A ring holds a queue. -/
structure Holds (r : Ring α) (capacity : Nat) (q : List α) : Prop where
  sound : r.IsSound
  capacity_eq : r.capacity = capacity
  contents_eq : r.contents = q

theorem Holds.unread_eq {r : Ring α} {capacity : Nat} {q : List α} (h : r.Holds capacity q) :
    r.unread = q.length := by
  rw [← h.contents_eq, length_contents]

/-- **An operation on a ring is the operation on the queue that it holds.** -/
theorem Holds.step {r : Ring α} {capacity : Nat} {q : List α} (h : r.Holds capacity q) (op : Op α) :
    (op.onRing r).1 = (op.onQueue capacity q).1 ∧
      (op.onRing r).2.Holds capacity (op.onQueue capacity q).2 := by
  have hc := h.capacity_eq
  have hq := h.contents_eq
  cases op with
  | write data =>
    have hkept : (r.write data).Holds capacity ((q ++ data).rtake capacity) :=
      ⟨h.sound.write data, (capacity_write r data).trans hc, by rw [contents_write h.sound, hq, hc]⟩
    exact ⟨congrArg (Prod.mk []) hkept.unread_eq, hkept⟩
  | read n =>
    have hgiven : (r.read n).1 = q.take n := (read_fst r n).trans (congrArg (List.take n) hq)
    have hkept : (r.read n).2.Holds capacity (q.drop n) :=
      ⟨h.sound.read n, hc, (contents_read r n).trans (congrArg (List.drop n) hq)⟩
    exact ⟨congrArg₂ Prod.mk hgiven hkept.unread_eq, hkept⟩
  | clear =>
    have hkept : r.clear.Holds capacity [] := ⟨isSound_clear r, hc, contents_clear r⟩
    exact ⟨congrArg (Prod.mk []) hkept.unread_eq, hkept⟩

/-! ### What becomes of the samples -/

/-- What becomes of a sample that cannot be read any more. -/
inductive Fate where
  | delivered
  /-- It was pushed out before it was read. -/
  | overwritten
  /-- The queue was cleared before it was read. -/
  | discarded
  deriving DecidableEq, Repr

/-- The fates that an operation decides, oldest sample first: a read delivers, a clear discards, and a write
overwrites as many as there is no room for. -/
def Op.fates (capacity : Nat) : Op α → List α → List Fate
  | write data, q => List.replicate ((q ++ data).length - capacity) .overwritten
  | read n, q => List.replicate (min n q.length) .delivered
  | clear, q => List.replicate q.length .discarded

/-- The fates that some operations decide, oldest sample first. -/
def fates (capacity : Nat) : List (Op α) → List α → List Fate
  | [], _ => []
  | op :: ops, q => op.fates capacity q ++ fates capacity ops (op.onQueue capacity q).2

/-- Of samples in order, those with a fate. -/
def withFate (f : Fate) (samples : List α) (fs : List Fate) : List α :=
  ((samples.zip fs).filter fun p => p.2 = f).map Prod.fst

theorem withFate_append (f : Fate) {xs : List α} {fs : List Fate} (h : xs.length = fs.length)
    (ys : List α) (gs : List Fate) :
    withFate f (xs ++ ys) (fs ++ gs) = withFate f xs fs ++ withFate f ys gs := by
  rw [withFate, List.zip_append h, List.filter_append, List.map_append]
  rfl

theorem withFate_replicate (f g : Fate) (xs : List α) :
    withFate f xs (List.replicate xs.length g) = if g = f then xs else [] := by
  induction xs with
  | nil => simp [withFate]
  | cons x xs ih =>
    have hcons : withFate f (x :: xs) (List.replicate (xs.length + 1) g) =
        (if g = f then [x] else []) ++ withFate f xs (List.replicate xs.length g) := by
      by_cases hg : g = f <;> simp [withFate, List.replicate_succ, hg]
    rw [List.length_cons, hcons, ih]
    by_cases hg : g = f <;> simp [hg]

theorem Op.length_fates_le (capacity : Nat) (op : Op α) (q : List α) :
    (op.fates capacity q).length ≤ (q ++ op.data).length := by
  rw [List.length_append]
  cases op with
  | write xs =>
    rw [fates, List.length_replicate, List.length_append]
    exact Nat.sub_le _ _
  | read n =>
    rw [fates, List.length_replicate]
    exact Nat.le_trans (Nat.min_le_right _ _) (Nat.le_add_right _ _)
  | clear =>
    rw [fates, List.length_replicate]
    exact Nat.le_add_right _ _

/-- An operation decides over the oldest samples, and leaves the others in the queue. -/
theorem Op.onQueue_snd (capacity : Nat) (op : Op α) (q : List α) :
    (op.onQueue capacity q).2 = (q ++ op.data).drop (op.fates capacity q).length := by
  cases op with
  | write data =>
    rw [fates, List.length_replicate]
    rfl
  | read n =>
    rw [fates, List.length_replicate]
    show q.drop n = (q ++ []).drop _
    rw [List.append_nil]
    rcases Nat.le_total n q.length with hn | hn
    · rw [Nat.min_eq_left hn]
    · rw [Nat.min_eq_right hn, List.drop_of_length_le hn, List.drop_length]
  | clear =>
    rw [fates, List.length_replicate]
    show [] = (q ++ []).drop _
    rw [List.append_nil, List.drop_length]

/-- An operation gives those of the samples it decides over that it delivers. -/
theorem Op.onQueue_fst (capacity : Nat) (op : Op α) (q : List α) :
    (op.onQueue capacity q).1.1 =
      withFate .delivered ((q ++ op.data).take (op.fates capacity q).length) (op.fates capacity q) := by
  have hdecided : ∀ (n : Nat) (g : Fate) (xs : List α), n ≤ xs.length →
      withFate .delivered (xs.take n) (List.replicate n g) = if g = .delivered then xs.take n else [] := by
    intro n g xs hn
    have h := withFate_replicate .delivered g (xs.take n)
    rwa [List.length_take, Nat.min_eq_left hn] at h
  have hle := op.length_fates_le capacity q
  cases op with
  | write xs =>
    rw [fates, List.length_replicate] at hle ⊢
    rw [hdecided _ _ _ hle, if_neg (by decide)]
    rfl
  | read n =>
    rw [fates, List.length_replicate] at hle ⊢
    rw [hdecided _ _ _ hle, if_pos rfl]
    show q.take n = (q ++ []).take _
    rw [List.append_nil, ← List.take_take, List.take_length]
  | clear =>
    rw [fates, List.length_replicate] at hle ⊢
    rw [hdecided _ _ _ hle, if_neg (by decide)]
    rfl

/-- Some operations decide over the oldest samples, of which they give those that they deliver, and leave the
others in the queue. -/
theorem decided (capacity : Nat) (ops : List (Op α)) (q : List α) :
    let samples := q ++ ops.flatMap Op.data
    (outputs (Op.onQueue capacity) ops q).flatMap Prod.fst =
        withFate .delivered samples (fates capacity ops q) ∧
      final (Op.onQueue capacity) ops q = samples.drop (fates capacity ops q).length := by
  induction ops generalizing q with
  | nil => simp [outputs, final, fates, withFate]
  | cons op ops ih =>
    obtain ⟨hgives, hleft⟩ := ih (op.onQueue capacity q).2
    have hle := op.length_fates_le capacity q
    -- the samples are those that the first operation decides over, and those that it leaves to the others
    have hsplit : q ++ (op :: ops).flatMap Op.data =
        (q ++ op.data).take (op.fates capacity q).length ++
          ((op.onQueue capacity q).2 ++ ops.flatMap Op.data) := by
      rw [List.flatMap_cons, ← List.append_assoc, ← List.append_assoc, op.onQueue_snd capacity q,
        List.take_append_drop]
    have hlength : ((q ++ op.data).take (op.fates capacity q).length).length =
        (op.fates capacity q).length := by
      rw [List.length_take, Nat.min_eq_left hle]
    dsimp only
    rw [hsplit, fates]
    constructor
    · rw [withFate_append _ hlength, ← hgives, ← op.onQueue_fst capacity q]
      rfl
    · rw [List.length_append, ← List.drop_drop, List.drop_left' hlength, ← hleft]
      rfl

theorem length_onQueue_le {capacity : Nat} {q : List α} (hq : q.length ≤ capacity) (op : Op α) :
    (op.onQueue capacity q).2.length ≤ capacity := by
  cases op with
  | write data =>
    show ((q ++ data).drop ((q ++ data).length - capacity)).length ≤ capacity
    rw [List.length_drop]
    omega
  | read n =>
    show (q.drop n).length ≤ capacity
    rw [List.length_drop]
    omega
  | clear => exact Nat.zero_le _

/-- **A new ring is an empty queue of at most as many samples as it has slots**: whatever is done with it, it
gives the same samples and counts the same.  Of all samples that were written, in their order, some first
ones have a fate and the others can still be read; what was read are those that were delivered. -/
theorem refines_queue (capacity : Nat) (x : α) (ops : List (Op α)) :
    let bound := max capacity 1
    let given := outputs Op.onRing ops (create capacity x)
    let queue := final (Op.onQueue bound) ops []
    let written := ops.flatMap Op.data
    given = outputs (Op.onQueue bound) ops [] ∧
      queue.length ≤ bound ∧
      (final Op.onRing ops (create capacity x)).contents = queue ∧
      given.flatMap Prod.fst = withFate .delivered written (fates bound ops []) ∧
      queue = written.drop (fates bound ops []).length := by
  have hnew : (create capacity x).Holds (max capacity 1) [] :=
    ⟨isSound_create capacity x, by simp [Ring.capacity, create], contents_create capacity x⟩
  obtain ⟨hgiven, hheld⟩ := outputs_eq_of_simulation (R := fun r q => Holds r (max capacity 1) q)
    (fun op _ _ h => h.step op) hnew ops
  obtain ⟨hdelivered, hleft⟩ := decided (max capacity 1) ops []
  have hbound : (final (Op.onQueue (max capacity 1)) ops []).length ≤ max capacity 1 :=
    final_invariant (P := fun q : List α => q.length ≤ max capacity 1)
      (fun op _ hq => length_onQueue_le hq op) (Nat.zero_le _) ops
  refine ⟨hgiven, hbound, hheld.contents_eq, ?_, hleft⟩
  rw [hgiven]
  exact hdelivered

example : fates 4 [.write [1, 2, 3], .write [4, 5, 6], .read 1, .write [7], .clear] [] =
    [.overwritten, .overwritten, .delivered, .discarded, .discarded, .discarded, .discarded] := by
  decide

end Ring
end SynthControl
