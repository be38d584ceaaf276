import Mathlib.Algebra.Group.Int.Defs
import Mathlib.Algebra.Group.Nat.Defs
import SynthControl.Proofs.Overwriting
import SynthControl.Midi

/-!
# A MIDI ring is a queue that rejects

The records of a MIDI ring lie in one array, and its cursors in a region that is reset and replaced without
the ring.  Together they are a queue with a bound: a message that finds it full is rejected, and a region
that begins anew empties it.

* `records_eq`, `advance_eq` — the records from a slot on, by their numbers around the ring;
* `Queue`, `Op`, `Op.onRing`, `Op.onQueue` — the queue, and the operations on ring and queue;
* `Holds` — a ring and a region hold a queue; `Holds.enqueue`, `Holds.drain`, `Holds.renew` — **every
  operation keeps that**;
* `Op.touched` — the slots at which the records begin that an operation writes or reads;
* `refines_fifo` — **a run of operations shows the same on ring and region as on the queue**, and no record
  crosses the end of the array.
-/

namespace SynthControl.Midi

namespace Ring

/-! ### Records and slots -/

theorem load_store_same (slots : Array Int) {i : Nat} (m : Message)
    (h : i + recordSize ≤ slots.size) : load (store slots i m) i = m := by
  have h' : i + 3 ≤ slots.size := h
  simp [load, store, Array.getD_eq_getD_getElem?, show i < slots.size by omega, show i + 1 < slots.size by omega,
    show i + 2 < slots.size by omega]

/-- A record leaves records alone that do not overlap it. -/
theorem load_store_other (slots : Array Int) {i j : Nat} (m : Message)
    (h : i + recordSize ≤ j ∨ j + recordSize ≤ i) : load (store slots i m) j = load slots j := by
  have h' : i + 3 ≤ j ∨ j + 3 ≤ i := h
  simp (disch := omega) [load, store, Array.getD_eq_getD_getElem?, Array.getElem?_setIfInBounds_ne]

/-- Records with different numbers do not overlap. -/
theorem apart {a b : Nat} (h : a ≠ b) :
    recordSize * a + recordSize ≤ recordSize * b ∨ recordSize * b + recordSize ≤ recordSize * a := by
  rw [recordSize]
  omega

/-- Going on by a record around the ring is going on to the next number. -/
theorem next_slot (c k : Nat) :
    (recordSize * k + recordSize) % (recordSize * c) = recordSize * ((k + 1) % c) := by
  rw [show recordSize * k + recordSize = recordSize * (k + 1) from rfl, Nat.mul_mod_mul_left]

/-- The records from a number on are those of the numbers that follow it around the ring. -/
theorem records_eq {slots : Array Int} {c : Nat} (hs : slots.size = recordSize * c) (n : Nat) {k : Nat}
    (hk : k < c) :
    records slots n (recordSize * k) =
      (List.range n).map fun j => load slots (recordSize * ((k + j) % c)) := by
  induction n generalizing k with
  | zero => rfl
  | succ n ih =>
    have hc : 0 < c := by omega
    rw [records, hs, next_slot, ih (Nat.mod_lt _ hc), List.range_succ_eq_map, List.map_cons,
      List.map_map]
    congr 1
    · rw [show k + 0 = k from rfl, Nat.mod_eq_of_lt hk]
    · apply List.map_congr_left
      intro j _
      show load slots (recordSize * (((k + 1) % c + j) % c)) = load slots (recordSize * ((k + (j + 1)) % c))
      rw [Nat.mod_add_mod, show k + 1 + j = k + (j + 1) by omega]

/-- Going on by some records is going on by that number around the ring. -/
theorem advance_eq (c n : Nat) {k : Nat} (hk : k < c) :
    advance (recordSize * c) n (recordSize * k) = recordSize * ((k + n) % c) := by
  induction n generalizing k with
  | zero => rw [advance, show k + 0 = k from rfl, Nat.mod_eq_of_lt hk]
  | succ n ih =>
    have hc : 0 < c := by omega
    rw [advance, next_slot, ih (Nat.mod_lt _ hc), Nat.mod_add_mod,
      show k + 1 + n = k + (n + 1) by omega]

/-- A record that is written behind others leaves them alone. -/
theorem records_store {slots : Array Int} {c : Nat} (hs : slots.size = recordSize * c) {n k : Nat}
    (hk : k < c) (hn : n < c) (m : Message) :
    records (store slots (recordSize * ((k + n) % c)) m) (n + 1) (recordSize * k) =
      records slots n (recordSize * k) ++ [m] := by
  have hc : 0 < c := by omega
  have hlast : (k + n) % c < c := Nat.mod_lt _ hc
  rw [records_eq (by rw [size_store, hs]) _ hk, records_eq hs _ hk, List.range_succ, List.map_append,
    List.map_singleton]
  congr 1
  · apply List.map_congr_left
    intro j hj
    have hjn : j < n := List.mem_range.1 hj
    have hne : (k + n) % c ≠ (k + j) % c := mod_ne_of_lt_add (by omega) (by omega)
    exact load_store_other slots m (apart hne)
  · rw [load_store_same]
    rw [hs, show recordSize * ((k + n) % c) + recordSize = recordSize * ((k + n) % c + 1) from rfl]
    exact Nat.mul_le_mul_left _ hlast

/-- The slots at which `n` records begin, from a slot on, around the end of the ring. -/
def starts (size : Nat) : Nat → Nat → List Nat
  | 0, _ => []
  | n + 1, i => i :: starts size n ((i + recordSize) % size)

/-- The records are read at these slots. -/
theorem records_eq_map_load (slots : Array Int) (n i : Nat) :
    records slots n i = (starts slots.size n i).map (load slots) := by
  induction n generalizing i with
  | zero => rfl
  | succ n ih => rw [records, ih, starts, List.map_cons]

/-- The slots at which records begin are those of numbers. -/
theorem mem_starts {c n k i : Nat} (hk : k < c) (h : i ∈ starts (recordSize * c) n (recordSize * k)) :
    ∃ j, j < c ∧ i = recordSize * j := by
  induction n generalizing k with
  | zero => exact absurd h List.not_mem_nil
  | succ n ih =>
    have hc : 0 < c := by omega
    rw [starts, next_slot] at h
    rcases List.mem_cons.1 h with h | h
    · exact ⟨k, hk, h⟩
    · exact ih (Nat.mod_lt _ hc) h

end Ring

/-! ### The queue and the operations -/

/-- A queue of messages, with what became of the others. -/
structure Queue where
  /-- The unread messages, oldest first. -/
  waiting : List Message := []
  /-- Messages delivered since the region began anew. -/
  delivered : Nat := 0
  /-- Messages ever rejected. -/
  rejected : Nat := 0

/-- An operation on a ring and its region. -/
inductive Op where
  | enqueue (m : Message)
  | drain
  /-- The region is reset. -/
  | reset
  /-- A fresh region takes the place of the region. -/
  | replace

/-- What an operation puts out. -/
inductive Output where
  | enqueued (accepted : Bool)
  | drained (messages : List Message)
  | renewed
  deriving DecidableEq, Repr

namespace Op

/-- An operation on a ring and its region. -/
def onRing : Op → Ring × Region → Output × Ring × Region
  | enqueue m, (r, g) => (.enqueued (r.enqueue g m).1, (r.enqueue g m).2)
  | drain, (r, g) => (.drained (r.drain g).1, r, (r.drain g).2)
  | reset, (r, g) => (.renewed, r, g.reset)
  | replace, (r, _) => (.renewed, r, .fresh)

/-- The same on a queue of at most `capacity` messages. -/
def onQueue (capacity : Nat) : Op → Queue → Output × Queue
  | enqueue m, q =>
    if q.waiting.length < capacity then (.enqueued true, { q with waiting := q.waiting ++ [m] })
    else (.enqueued false, { q with rejected := q.rejected + 1 })
  | drain, q =>
    (.drained q.waiting, { q with waiting := [], delivered := q.delivered + q.waiting.length })
  | reset, q | replace, q => (.renewed, { q with waiting := [], delivered := 0 })

/-- The slots at which the records begin that an operation writes or reads. -/
def touched : Op → Ring × Region → List Nat
  | enqueue _, (r, g) =>
    if r.capacity ≤ Ring.pending g then []
    else [(Ring.pending g * recordSize + Ring.head g) % r.slots.size]
  | drain, (r, g) =>
    Ring.starts r.slots.size (min (Ring.pending g) r.capacity) (Ring.head g % r.slots.size)
  | reset, _ | replace, _ => []

/-- A drain reads the records there. -/
theorem drain_touched (r : Ring) (g : Region) :
    (r.drain g).1 = (drain.touched (r, g)).map (Ring.load r.slots) := by
  rw [touched, ← Ring.records_eq_map_load, Ring.drain]
  dsimp only
  split
  · next hz => rw [hz, Ring.records]
  · rfl

/-- A message is written there, or not at all. -/
theorem enqueue_touched (r : Ring) (g : Region) (m : Message) :
    (r.enqueue g m).2.1.slots =
      ((enqueue m).touched (r, g)).foldl (fun slots i => Ring.store slots i m) r.slots := by
  rw [touched, Ring.enqueue]
  dsimp only
  split <;> rfl

end Op

/-! ### A ring and a region hold a queue -/

/-- A ring and a region hold a queue of at most `capacity` messages. -/
structure Holds (s : Ring × Region) (capacity : Nat) (q : Queue) : Prop where
  positive : 0 < capacity
  capacity_eq : s.1.capacity = capacity
  size_eq : s.1.slots.size = recordSize * capacity
  within : q.waiting.length ≤ capacity
  pending_eq : s.2.get .midiPending = q.waiting.length
  index_eq : s.2.get .midiIndex = (recordSize * q.delivered % (recordSize * capacity) : Nat)
  records_eq : Ring.records s.1.slots q.waiting.length (Ring.head s.2) = q.waiting
  rejected_eq : s.1.dropped = q.rejected

namespace Holds

variable {s : Ring × Region} {capacity : Nat} {q : Queue}

theorem pending_nat (h : Holds s capacity q) : Ring.pending s.2 = q.waiting.length := by
  rw [Ring.pending, h.pending_eq, Int.toNat_natCast]

/-- The head is the record of the number of messages delivered, around the ring. -/
theorem head_eq (h : Holds s capacity q) :
    Ring.head s.2 = recordSize * (q.delivered % capacity) := by
  rw [Ring.head, h.index_eq, Int.toNat_natCast, Nat.mul_mod_mul_left]

theorem head_lt (h : Holds s capacity q) : q.delivered % capacity < capacity :=
  Nat.mod_lt _ h.positive

/-- The slot of the next message is the record behind the unread ones. -/
theorem next_eq (h : Holds s capacity q) :
    (Ring.pending s.2 * recordSize + Ring.head s.2) % s.1.slots.size =
      recordSize * ((q.delivered % capacity + q.waiting.length) % capacity) := by
  rw [h.pending_nat, h.head_eq, h.size_eq, Nat.mul_comm q.waiting.length, ← Nat.mul_add,
    Nat.mul_mod_mul_left, Nat.add_comm q.waiting.length]

end Holds

namespace Holds

variable {r : Ring} {g : Region} {capacity : Nat} {q : Queue}

/-- A message that finds no room is counted, and nothing else changes. -/
theorem enqueue_full (h : Holds (r, g) capacity q) (hfull : q.waiting.length = capacity) (m : Message) :
    r.enqueue g m = (false, { r with dropped := r.dropped + 1 }, g) := by
  have hle : r.capacity ≤ Ring.pending g := by
    rw [h.capacity_eq, h.pending_nat, hfull]
  simp only [Ring.enqueue, if_pos hle]

/-- A message that finds room is written behind the others, and counted in the region. -/
theorem enqueue_room (h : Holds (r, g) capacity q) (hroom : q.waiting.length < capacity) (m : Message) :
    r.enqueue g m =
      (true,
        { r with
          slots :=
            Ring.store r.slots (recordSize * ((q.delivered % capacity + q.waiting.length) % capacity)) m },
        g.add .midiPending 1) := by
  have hlt : ¬ r.capacity ≤ Ring.pending g := by
    rw [h.capacity_eq, h.pending_nat]
    exact Nat.not_le.2 hroom
  have hnext := h.next_eq
  simp only at hnext
  simp only [Ring.enqueue, if_neg hlt, hnext]

/-- Writing a message keeps ring and region together with the queue. -/
theorem enqueue (h : Holds (r, g) capacity q) (hword : recordSize * capacity < 2 ^ 31) (m : Message) :
    (Op.onRing (.enqueue m) (r, g)).1 = (Op.onQueue capacity (.enqueue m) q).1 ∧
      Holds (Op.onRing (.enqueue m) (r, g)).2 capacity (Op.onQueue capacity (.enqueue m) q).2 := by
  have hsmall : capacity < 2 ^ 31 := by
    rw [recordSize] at hword
    omega
  by_cases hroom : q.waiting.length < capacity
  · have hcount : (g.add .midiPending 1).get .midiPending = (q.waiting.length + 1 : Nat) := by
      have hp : g.get .midiPending = q.waiting.length := h.pending_eq
      rw [Region.add, Region.get_set_same, hp, wrapped_eq (by omega) (by omega)]
      rfl
    have hindex : (g.add .midiPending 1).get .midiIndex = g.get .midiIndex :=
      Region.get_set_other g _ (by decide)
    have hhead : Ring.head (g.add .midiPending 1) = Ring.head g := by
      rw [Ring.head, hindex]
      rfl
    rw [Op.onRing, h.enqueue_room hroom, Op.onQueue, if_pos hroom]
    refine ⟨rfl, h.positive, h.capacity_eq, ?_, ?_, ?_, ?_, ?_, h.rejected_eq⟩
    · exact (Ring.size_store _ _ _).trans h.size_eq
    · rw [List.length_append]
      exact hroom
    · rw [List.length_append]
      exact hcount
    · exact hindex.trans h.index_eq
    · show Ring.records (Ring.store _ _ m) (q.waiting ++ [m]).length (Ring.head (g.add .midiPending 1)) = _
      rw [hhead, h.head_eq, List.length_append, List.length_singleton,
        Ring.records_store h.size_eq h.head_lt hroom, ← h.head_eq, h.records_eq]
  · have hfull : q.waiting.length = capacity := Nat.le_antisymm h.within (Nat.not_lt.1 hroom)
    rw [Op.onRing, h.enqueue_full hfull, Op.onQueue, if_neg hroom]
    exact ⟨rfl, h.positive, h.capacity_eq, h.size_eq, h.within, h.pending_eq, h.index_eq, h.records_eq,
      congrArg (· + 1) h.rejected_eq⟩

/-- What a drain comes to: the messages, and a region whose head lies behind them. -/
theorem drain_eq (h : Holds (r, g) capacity q) (hne : q.waiting ≠ []) :
    r.drain g = (q.waiting,
      (g.set .midiIndex
        (recordSize * ((q.delivered % capacity + q.waiting.length) % capacity) : Nat)).add .midiPending
        (-(q.waiting.length : Int))) := by
  have hmin : min (Ring.pending g) r.capacity = q.waiting.length := by
    rw [h.pending_nat, h.capacity_eq]
    exact Nat.min_eq_left h.within
  have hpos : q.waiting.length ≠ 0 := fun hz => hne (List.eq_nil_of_length_eq_zero hz)
  have hhead : Ring.head g % r.slots.size = recordSize * (q.delivered % capacity) := by
    rw [h.head_eq, h.size_eq]
    exact Nat.mod_eq_of_lt (Nat.mul_lt_mul_of_pos_left h.head_lt (by decide))
  have hrecords : Ring.records r.slots q.waiting.length (recordSize * (q.delivered % capacity)) =
      q.waiting := by
    rw [← h.head_eq]
    exact h.records_eq
  have hsize : r.slots.size = recordSize * capacity := h.size_eq
  have hadvance : Ring.advance r.slots.size q.waiting.length (recordSize * (q.delivered % capacity)) =
      recordSize * ((q.delivered % capacity + q.waiting.length) % capacity) := by
    rw [hsize]
    exact Ring.advance_eq capacity _ h.head_lt
  simp only [Ring.drain, hmin, if_neg hpos, hhead, hrecords, hadvance]

/-- Taking every message out keeps ring and region together with the queue. -/
theorem drain (h : Holds (r, g) capacity q) :
    (Op.onRing .drain (r, g)).1 = (Op.onQueue capacity .drain q).1 ∧
      Holds (Op.onRing .drain (r, g)).2 capacity (Op.onQueue capacity .drain q).2 := by
  by_cases hne : q.waiting = []
  · have hzero : min (Ring.pending g) r.capacity = 0 := by
      rw [h.pending_nat, hne]
      rfl
    have hdrain : r.drain g = ([], g) := by
      simp only [Ring.drain, if_pos hzero]
    rw [Op.onRing, hdrain, Op.onQueue, hne]
    refine ⟨rfl, h.positive, h.capacity_eq, h.size_eq, Nat.zero_le _, ?_, ?_, rfl, h.rejected_eq⟩
    · rw [h.pending_eq, hne]
    · exact h.index_eq
  · rw [Op.onRing, h.drain_eq hne, Op.onQueue]
    refine ⟨rfl, h.positive, h.capacity_eq, h.size_eq, Nat.zero_le _, ?_, ?_, rfl, h.rejected_eq⟩
    · have hp : g.get .midiPending = q.waiting.length := h.pending_eq
      show (Region.add _ _ _).get _ = _
      rw [Region.add, Region.get_set_same, Region.get_set_other g _ (by decide), hp, Int.add_right_neg]
      rfl
    · show (Region.add _ _ _).get _ = _
      rw [Region.add, Region.get_set_other _ _ (by decide), Region.get_set_same, Nat.mod_add_mod,
        Nat.mul_mod_mul_left]

/-- A region that begins anew empties the queue. -/
theorem renew (h : Holds (r, g) capacity q) {g' : Region} (hg : ∀ f, g'.get f = f.initial) :
    Holds (r, g') capacity { q with waiting := [], delivered := 0 } := by
  refine ⟨h.positive, h.capacity_eq, h.size_eq, Nat.zero_le _, hg .midiPending, ?_, rfl, h.rejected_eq⟩
  exact hg .midiIndex

/-- **An operation on ring and region is the operation on the queue that they hold.** -/
theorem step {s : Ring × Region} (hword : recordSize * capacity < 2 ^ 31) (op : Op)
    (h : Holds s capacity q) :
    (op.onRing s).1 = (op.onQueue capacity q).1 ∧
      Holds (op.onRing s).2 capacity (op.onQueue capacity q).2 := by
  obtain ⟨r, g⟩ := s
  cases op with
  | enqueue m => exact h.enqueue hword m
  | drain => exact h.drain
  | reset => exact ⟨rfl, h.renew fun f => Region.get_reset g f⟩
  | replace => exact ⟨rfl, h.renew fun f => by cases f <;> rfl⟩

/-- A record that an operation writes or reads lies between the ends of the array. -/
theorem touched_within {s : Ring × Region} (h : Holds s capacity q) {op : Op} {i : Nat}
    (hi : i ∈ op.touched s) : i + recordSize ≤ s.1.slots.size := by
  have hrecord : ∃ j, j < capacity ∧ i = recordSize * j := by
    obtain ⟨r, g⟩ := s
    cases op with
    | enqueue m =>
      rw [Op.touched] at hi
      split at hi
      · exact absurd hi List.not_mem_nil
      · exact ⟨_, Nat.mod_lt _ h.positive, (List.mem_singleton.1 hi).trans h.next_eq⟩
    | drain =>
      have hhead : Ring.head g % r.slots.size = recordSize * (q.delivered % capacity) := by
        rw [h.head_eq, h.size_eq]
        exact Nat.mod_eq_of_lt (Nat.mul_lt_mul_of_pos_left h.head_lt (by decide))
      rw [Op.touched, hhead, h.size_eq] at hi
      exact Ring.mem_starts h.head_lt hi
    | reset => exact absurd hi List.not_mem_nil
    | replace => exact absurd hi List.not_mem_nil
  obtain ⟨j, hj, rfl⟩ := hrecord
  rw [h.size_eq, show recordSize * j + recordSize = recordSize * (j + 1) from rfl]
  exact Nat.mul_le_mul_left _ hj

end Holds

/-- A new ring with a pristine region holds the empty queue. -/
theorem holds_create {capacity : Nat} (hc : 0 < capacity) {g : Region} (hg : g.isPristine = true) :
    Holds (Ring.create capacity, g) capacity {} := by
  have hinitial := Region.isPristine_iff.1 hg
  have hmax : max capacity 1 = capacity := by omega
  refine ⟨hc, hmax, ?_, Nat.zero_le _, hinitial .midiPending, ?_, rfl, rfl⟩
  · rw [Ring.create, Array.size_replicate, hmax]
  · exact hinitial .midiIndex

/-- **A MIDI ring and its region are a queue that rejects what finds it full**: in a run of operations they
put out the same as the queue, which a region that begins anew empties.  At any time the words of the region
are the length of the queue and the slot of its head, the ring has counted the rejected messages, a message
that finds the queue full changes nothing but that count, and no record that is written or read crosses the end of the
array. -/
theorem refines_fifo (capacity : Nat) (hc : 1 ≤ capacity) (hword : recordSize * capacity < 2 ^ 31)
    (region : Region) (hregion : region.isPristine = true) (ops : List Op) :
    let s := final Op.onRing ops (Ring.create capacity, region)
    let q := final (Op.onQueue capacity) ops {}
    outputs Op.onRing ops (Ring.create capacity, region) = outputs (Op.onQueue capacity) ops {} ∧
      q.waiting.length ≤ capacity ∧
      s.2.get .midiPending = q.waiting.length ∧
      s.2.get .midiIndex = (recordSize * q.delivered % (recordSize * capacity) : Nat) ∧
      s.1.dropped = q.rejected ∧
      (∀ m, q.waiting.length = capacity →
        s.1.enqueue s.2 m = (false, { s.1 with dropped := s.1.dropped + 1 }, s.2)) ∧
      (∀ op : Op, ∀ i ∈ op.touched s, i + recordSize ≤ s.1.slots.size) ∧
      (s.1.drain s.2).1 = (Op.drain.touched s).map (Ring.load s.1.slots) ∧
      ∀ m, (s.1.enqueue s.2 m).2.1.slots =
        ((Op.enqueue m).touched s).foldl (fun slots i => Ring.store slots i m) s.1.slots := by
  obtain ⟨hout, hheld⟩ := outputs_eq_of_simulation (R := fun s q => Holds s capacity q)
    (fun op _ _ h => h.step hword op) (holds_create hc hregion) ops
  exact ⟨hout, hheld.within, hheld.pending_eq, hheld.index_eq, hheld.rejected_eq,
    fun m hfull => hheld.enqueue_full hfull m, fun _ _ hi => hheld.touched_within hi,
    Op.drain_touched _ _, Op.enqueue_touched _ _⟩

/-- A ring of two messages: the third is rejected, a drain delivers the first two, the next ones go around the
end, and a reset loses what was not delivered. -/
theorem refines_fifo_two :
    1 ≤ 2 ∧ recordSize * 2 < 2 ^ 31 ∧ Region.fresh.isPristine = true ∧
      outputs Op.onRing
          [.enqueue ⟨1, 1, 1⟩, .enqueue ⟨2, 2, 2⟩, .enqueue ⟨3, 3, 3⟩, .drain, .enqueue ⟨4, 4, 4⟩, .drain,
            .enqueue ⟨5, 5, 5⟩, .enqueue ⟨6, 6, 6⟩, .drain, .enqueue ⟨7, 7, 7⟩, .reset, .drain]
          (Ring.create 2, .fresh) =
        [.enqueued true, .enqueued true, .enqueued false, .drained [⟨1, 1, 1⟩, ⟨2, 2, 2⟩], .enqueued true,
          .drained [⟨4, 4, 4⟩], .enqueued true, .enqueued true, .drained [⟨5, 5, 5⟩, ⟨6, 6, 6⟩],
          .enqueued true, .renewed, .drained []] :=
  ⟨by decide, by decide, by decide,
    (refines_fifo 2 (by decide) (by decide) .fresh (by decide) _).1.trans (by decide)⟩

end SynthControl.Midi
