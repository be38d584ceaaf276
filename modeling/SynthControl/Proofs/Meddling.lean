import Mathlib.Logic.Relation
import SynthControl.Proofs.WellFormed

/-!
# What others may do while the render loop is at work

Control side and engine go on while the render loop has its turn: they write words of the region, samples and
messages.  The loop trusts them with one thing, the cursor of the MIDI ring, which has to stay within the ring; and
while it hands messages over, nobody moves the cursor.

* `Io.Seated`, `Io.waiting` — the cursor lies within the ring; the messages that are waiting, oldest first;
* `Io.Touch`, `Touches` — the others write a word, samples or a message, and keep away from the cursor;
* `Io.Meddle`, `Meddles` — they may also put the cursor somewhere else within the ring;
* `Touches.grows` — **messages that come later queue up behind those that are waiting**;
* `Meddles.seated` — **whatever the others do, the cursor lies within the ring**;
* `Grows.moved` — **a cursor that is moved past messages leaves the others waiting**.
-/

namespace SynthControl

open Relation

/-- The words that make up the cursor of the MIDI ring. -/
def cursorWords : List Field := [.midiIndex, .midiPending]

namespace Io

/-- The cursor of the MIDI ring lies within the ring: it is at the beginning of a record, and no more messages are
unread than the ring can hold. -/
structure Seated (io : Io) : Prop where
  positive : 0 < io.bank.midi.capacity
  size_eq : io.bank.midi.slots.size = Midi.recordSize * io.bank.midi.capacity
  word : Midi.recordSize * io.bank.midi.capacity < 2 ^ 31
  index : Field.midiIndex.Admits io.bank.midi.capacity (io.region.get .midiIndex)
  pending : Field.midiPending.Admits io.bank.midi.capacity (io.region.get .midiPending)

/-- The messages that are waiting, oldest first. -/
def waiting (io : Io) : List Midi.Message :=
  Midi.Ring.records io.bank.midi.slots (min (Midi.Ring.pending io.region) io.bank.midi.capacity)
    (Midi.Ring.head io.region % io.bank.midi.slots.size)

/-- The `n` records from a number on, around the end of the ring. -/
def recordsFrom (io : Io) (k n : Nat) : List Midi.Message :=
  (List.range n).map fun j =>
    Midi.Ring.load io.bank.midi.slots (Midi.recordSize * ((k + j) % io.bank.midi.capacity))

@[simp] theorem length_recordsFrom (io : Io) (k n : Nat) : (io.recordsFrom k n).length = n := by
  rw [recordsFrom, List.length_map, List.length_range]

/-- Behind some of the records are those that follow. -/
theorem drop_recordsFrom (io : Io) (k n m : Nat) :
    (io.recordsFrom k n).drop m = io.recordsFrom ((k + m) % io.bank.midi.capacity) (n - m) := by
  apply List.ext_getElem
  · rw [List.length_drop, length_recordsFrom, length_recordsFrom]
  · intro i h₁ h₂
    simp only [recordsFrom, List.getElem_drop, List.getElem_map, List.getElem_range]
    rw [Nat.mod_add_mod, Nat.add_assoc]

section

variable {io io' : Io}

/-- The cursor is a number of a record and a count, and the messages that are waiting are the records from there
on. -/
theorem Seated.cursor (h : io.Seated) :
    ∃ k n, k < io.bank.midi.capacity ∧ n ≤ io.bank.midi.capacity ∧
      io.region.get .midiIndex = (Midi.recordSize * k : Nat) ∧ io.region.get .midiPending = n ∧
      io.waiting = io.recordsFrom k n := by
  obtain ⟨⟨k, hk⟩, hk0, hklt⟩ := h.index
  obtain ⟨hn0, hn⟩ := h.pending
  rw [Midi.recordSize] at hk hklt
  have hindex : io.region.get .midiIndex = (Midi.recordSize * k.toNat : Nat) := by
    rw [Midi.recordSize]
    omega
  have hlt : k.toNat < io.bank.midi.capacity := by omega
  have hcount : io.region.get .midiPending = ((io.region.get .midiPending).toNat : Nat) := by omega
  refine ⟨k.toNat, (io.region.get .midiPending).toNat, hlt, by omega, hindex, hcount, ?_⟩
  have hhead : Midi.Ring.head io.region % io.bank.midi.slots.size = Midi.recordSize * k.toNat := by
    rw [Midi.Ring.head, hindex, Int.toNat_natCast, h.size_eq, Nat.mul_mod_mul_left, Nat.mod_eq_of_lt hlt]
  rw [waiting, hhead, Midi.Ring.pending, Nat.min_eq_left (by omega), Midi.Ring.records_eq h.size_eq _ hlt]
  rfl

/-- A number of a record and a count make up a cursor. -/
theorem Seated.of_cursor (io : Io) (hsize : io.bank.midi.slots.size = Midi.recordSize * io.bank.midi.capacity)
    (hword : Midi.recordSize * io.bank.midi.capacity < 2 ^ 31) {k n : Nat} (hk : k < io.bank.midi.capacity)
    (hn : n ≤ io.bank.midi.capacity) (hindex : io.region.get .midiIndex = (Midi.recordSize * k : Nat))
    (hcount : io.region.get .midiPending = n) : io.Seated ∧ io.waiting = io.recordsFrom k n := by
  have hlt : Midi.recordSize * k < Midi.recordSize * io.bank.midi.capacity :=
    Nat.mul_lt_mul_of_pos_left hk (by decide)
  have hseated : io.Seated := by
    refine ⟨by omega, hsize, hword, ?_, ?_⟩
    · rw [hindex]
      exact ⟨⟨k, Int.natCast_mul _ _⟩, Int.natCast_nonneg _, Int.ofNat_lt.2 hlt⟩
    · rw [hcount]
      exact ⟨Int.natCast_nonneg _, Int.ofNat_le.2 hn⟩
  obtain ⟨k', n', -, -, hindex', hcount', hwaiting⟩ := hseated.cursor
  have hkeq : k' = k := by
    have heq := Int.ofNat_inj.1 (hindex'.symm.trans hindex)
    exact Nat.eq_of_mul_eq_mul_left (by decide) heq
  have hneq : n' = n := Int.ofNat_inj.1 (hcount'.symm.trans hcount)
  rw [hkeq, hneq] at hwaiting
  exact ⟨hseated, hwaiting⟩

/-- Ring and region hold the messages that are waiting as a queue. -/
theorem Seated.holds (h : io.Seated) :
    ∃ q, Midi.Holds (io.bank.midi, io.region) io.bank.midi.capacity q ∧ q.waiting = io.waiting := by
  obtain ⟨k, n, hk, hn, hindex, hcount, hwaiting⟩ := h.cursor
  have hlength : io.waiting.length = n := by rw [hwaiting, length_recordsFrom]
  refine ⟨⟨io.waiting, k, io.bank.midi.dropped⟩, ⟨h.positive, rfl, h.size_eq, ?_, ?_, ?_, ?_, rfl⟩, rfl⟩
  · rwa [hlength]
  · rw [hlength]
    exact hcount
  · rw [Nat.mul_mod_mul_left, Nat.mod_eq_of_lt hk]
    exact hindex
  · show Midi.Ring.records io.bank.midi.slots io.waiting.length (Midi.Ring.head io.region) = io.waiting
    rw [hlength, Midi.Ring.head, hindex, Int.toNat_natCast, Midi.Ring.records_eq h.size_eq _ hk, hwaiting]
    rfl

theorem seated_of_holds (io : Io) {c : Nat} {q : Midi.Queue} (h : Midi.Holds (io.bank.midi, io.region) c q)
    (hword : Midi.recordSize * c < 2 ^ 31) : io.Seated ∧ io.waiting = q.waiting := by
  obtain rfl : io.bank.midi.capacity = c := h.capacity_eq
  have hlt : q.delivered % io.bank.midi.capacity < io.bank.midi.capacity := h.head_lt
  have hindex : io.region.get .midiIndex = (Midi.recordSize * (q.delivered % io.bank.midi.capacity) : Nat) := by
    rw [← Nat.mul_mod_mul_left]
    exact h.index_eq
  obtain ⟨hseated, hwaiting⟩ := Seated.of_cursor io h.size_eq hword hlt h.within hindex h.pending_eq
  refine ⟨hseated, ?_⟩
  rw [hwaiting, recordsFrom, ← Midi.Ring.records_eq h.size_eq _ hlt, ← h.head_eq]
  exact h.records_eq

end

/-! ### The others -/

/-- Somebody else writes a word, samples or a message, or takes input, and keeps away from the cursor. -/
inductive Touch (io : Io) : Io → Prop
  | word {f : Field} (v : Int) (hf : f ∉ cursorWords) : Touch io { io with region := io.region.set f v }
  | notice (f : Field) : Touch io { io with region := io.region.notify f }
  | samples (xs : List Float) : Touch io { io with bank.audio.output := io.bank.audio.output.write xs }
  | taken (n : Nat) : Touch io { io with bank.audio.input := (io.bank.audio.input.read n).2 }
  | message (m : Midi.Message) :
    Touch io { io with
      region := (io.bank.midi.enqueue io.region m).2.2
      bank.midi := (io.bank.midi.enqueue io.region m).2.1 }

/-- Somebody else does such a thing, or puts the cursor somewhere else within the ring. -/
inductive Meddle (io : Io) : Io → Prop
  | touch {io' : Io} (h : io.Touch io') : Meddle io io'
  | cursor {index pending : Int} (hindex : Field.midiIndex.Admits io.bank.midi.capacity index)
    (hpending : Field.midiPending.Admits io.bank.midi.capacity pending) :
    Meddle io { io with region := (io.region.set .midiIndex index).set .midiPending pending }

/-- The others do several things, and keep away from the cursor. -/
def Touches (io io' : Io) : Prop := ReflTransGen Touch io io'

/-- The others do several things. -/
def Meddles (io io' : Io) : Prop := ReflTransGen Meddle io io'

/-- The cursor is at the same record, and the messages that were waiting still are, in front of others. -/
structure Grows (io io' : Io) : Prop where
  seated : io'.Seated
  capacity_eq : io'.bank.midi.capacity = io.bank.midi.capacity
  index_eq : io'.region.get .midiIndex = io.region.get .midiIndex
  waiting : io.waiting <+: io'.waiting

section

variable {io io' io'' : Io}

theorem Grows.refl (h : io.Seated) : io.Grows io := ⟨h, rfl, rfl, List.prefix_rfl⟩

theorem Grows.trans (h : io.Grows io') (h' : io'.Grows io'') : io.Grows io'' :=
  ⟨h'.seated, h'.capacity_eq.trans h.capacity_eq, h'.index_eq.trans h.index_eq, h.waiting.trans h'.waiting⟩

/-- Where neither the MIDI ring nor its cursor is touched, the same messages are waiting. -/
theorem Seated.congr (h : io.Seated) (io' : Io) (hring : io'.bank.midi = io.bank.midi)
    (hwords : ∀ f ∈ cursorWords, io'.region.get f = io.region.get f) : io'.Seated ∧ io'.waiting = io.waiting := by
  have hindex : io'.region.get .midiIndex = io.region.get .midiIndex := hwords _ (by decide)
  have hpending : io'.region.get .midiPending = io.region.get .midiPending := hwords _ (by decide)
  obtain ⟨hpositive, hsize, hword, hi, hp⟩ := h
  refine ⟨⟨?_, ?_, ?_, ?_, ?_⟩, ?_⟩
  · rwa [hring]
  · rwa [hring]
  · rwa [hring]
  · rwa [hring, hindex]
  · rwa [hring, hpending]
  · rw [waiting, waiting, Midi.Ring.pending, Midi.Ring.pending, Midi.Ring.head, Midi.Ring.head, hring, hindex, hpending]

theorem Seated.withOutput (h : io.Seated) (ring : Ring Float) : ({ io with bank.audio.output := ring } : Io).Seated :=
  (h.congr { io with bank.audio.output := ring } rfl fun _ _ => rfl).1

theorem Seated.withInput (h : io.Seated) (ring : Ring Float) : ({ io with bank.audio.input := ring } : Io).Seated :=
  (h.congr { io with bank.audio.input := ring } rfl fun _ _ => rfl).1

theorem Seated.grows_congr (h : io.Seated) (hring : io'.bank.midi = io.bank.midi)
    (hwords : ∀ f ∈ cursorWords, io'.region.get f = io.region.get f) : io.Grows io' := by
  obtain ⟨hseated, hwaiting⟩ := h.congr io' hring hwords
  exact ⟨hseated, by rw [hring], hwords _ (by decide), hwaiting ▸ List.prefix_rfl⟩

/-- **A message queues up behind those that are waiting**, or is rejected. -/
theorem Seated.enqueue (h : io.Seated) (m : Midi.Message) :
    io.Grows { io with
      region := (io.bank.midi.enqueue io.region m).2.2
      bank.midi := (io.bank.midi.enqueue io.region m).2.1 } := by
  obtain ⟨q, hq, hwaiting⟩ := h.holds
  obtain ⟨-, hleft⟩ := hq.enqueue h.word m
  obtain ⟨hseated, hqueue⟩ := seated_of_holds
    { io with
      region := (io.bank.midi.enqueue io.region m).2.2
      bank.midi := (io.bank.midi.enqueue io.region m).2.1 } hleft h.word
  refine ⟨hseated, hleft.capacity_eq, ?_, ?_⟩
  · show (io.bank.midi.enqueue io.region m).2.2.get .midiIndex = _
    rw [Midi.Ring.enqueue]
    dsimp only
    split
    · rfl
    · exact Region.get_set_other _ _ (by decide)
  · rw [hqueue, ← hwaiting, Midi.Op.onQueue]
    split
    · exact List.prefix_append _ _
    · exact List.prefix_rfl

theorem Touch.grows (ht : io.Touch io') (h : io.Seated) : io.Grows io' := by
  cases ht with
  | @word f v hf =>
    exact h.grows_congr rfl fun g hg => Region.get_set_other _ _ (by rintro rfl; exact hf hg)
  | notice f => exact h.grows_congr rfl fun _ _ => rfl
  | samples xs => exact h.grows_congr rfl fun _ _ => rfl
  | taken n => exact h.grows_congr rfl fun _ _ => rfl
  | message m => exact h.enqueue m

/-- **Messages that come later queue up behind those that are waiting.** -/
theorem Touches.grows (ht : io.Touches io') (h : io.Seated) : io.Grows io' := by
  induction ht with
  | refl => exact .refl h
  | tail _ hstep ih => exact ih.trans (hstep.grows ih.seated)

theorem Meddle.seated (hm : io.Meddle io') (h : io.Seated) : io'.Seated := by
  cases hm with
  | touch ht => exact (ht.grows h).seated
  | @cursor index pending hindex hpending =>
    refine ⟨h.positive, h.size_eq, h.word, ?_, ?_⟩
    · show Field.midiIndex.Admits io.bank.midi.capacity (((io.region.set .midiIndex index).set .midiPending _).get _)
      rwa [Region.get_set_other _ _ (by decide), Region.get_set_same]
    · show Field.midiPending.Admits io.bank.midi.capacity
        (((io.region.set .midiIndex _).set .midiPending pending).get _)
      rwa [Region.get_set_same]

/-- **Whatever the others do, the cursor lies within the ring.** -/
theorem Meddles.seated (hm : io.Meddles io') (h : io.Seated) : io'.Seated := by
  induction hm with
  | refl => exact h
  | tail _ hstep ih => exact hstep.seated ih

/-- A message that was waiting can still be read at its slot. -/
theorem Grows.load_eq (h : io.Grows io') {k j : Nat}
    (hindex : io.region.get .midiIndex = (Midi.recordSize * k : Nat)) (hj : j < io.waiting.length) :
    Midi.Ring.load io'.bank.midi.slots (Midi.recordSize * ((k + j) % io.bank.midi.capacity)) = io.waiting[j] := by
  obtain ⟨k', n', -, -, hindex', -, hwaiting'⟩ := h.seated.cursor
  obtain rfl : k' = k := by
    have heq := Int.ofNat_inj.1 (hindex'.symm.trans (h.index_eq.trans hindex))
    exact Nat.eq_of_mul_eq_mul_left (by decide) heq
  have hlt : j < io'.waiting.length := Nat.lt_of_lt_of_le hj h.waiting.length_le
  have hsame : io.waiting[j] = io'.waiting[j] := h.waiting.getElem hj
  rw [hsame, List.getElem_of_eq hwaiting', ← h.capacity_eq]
  simp only [recordsFrom, List.getElem_map, List.getElem_range]

/-- Region and rings when the cursor was moved past `n` records, from a slot on. -/
def moved (io : Io) (n slot : Nat) : Io :=
  { io with
    region := (io.region.set .midiIndex (Midi.Ring.advance io.bank.midi.slots.size n slot)).add .midiPending
      (-(n : Int)) }

/-- **A cursor that is moved past messages leaves the others waiting.** -/
theorem Grows.moved (h : io.Grows io') (hs : io.Seated) :
    let left := io'.moved io.waiting.length (Midi.Ring.head io.region % io.bank.midi.slots.size)
    left.Seated ∧ io'.waiting = io.waiting ++ left.waiting := by
  intro left
  obtain ⟨k, n, hk, hn, hindex, hcount, hwaiting⟩ := hs.cursor
  obtain ⟨k', n', hk', hn', hindex', hcount', hwaiting'⟩ := h.seated.cursor
  have hlength : io.waiting.length = n := by rw [hwaiting, length_recordsFrom]
  have hlength' : io'.waiting.length = n' := by rw [hwaiting', length_recordsFrom]
  have hle : n ≤ n' := by
    rw [← hlength, ← hlength']
    exact h.waiting.length_le
  obtain rfl : k' = k := by
    have heq := Int.ofNat_inj.1 (hindex'.symm.trans (h.index_eq.trans hindex))
    exact Nat.eq_of_mul_eq_mul_left (by decide) heq
  have hhead : Midi.Ring.head io.region % io.bank.midi.slots.size = Midi.recordSize * k' := by
    rw [Midi.Ring.head, hindex, Int.toNat_natCast, hs.size_eq, Nat.mul_mod_mul_left, Nat.mod_eq_of_lt hk]
  have hslot : Midi.Ring.advance io'.bank.midi.slots.size n (Midi.recordSize * k') =
      Midi.recordSize * ((k' + n) % io'.bank.midi.capacity) := by
    rw [h.seated.size_eq, Midi.Ring.advance_eq _ _ hk']
  have hleft : left.region = (io'.region.set .midiIndex
      (Midi.recordSize * ((k' + n) % io'.bank.midi.capacity) : Nat)).add .midiPending (-(n : Int)) := by
    rw [← hslot, ← hhead, ← hlength]
    rfl
  have hleftIndex : left.region.get .midiIndex =
      (Midi.recordSize * ((k' + n) % io'.bank.midi.capacity) : Nat) := by
    rw [hleft, Region.add, Region.get_set_other _ _ (by decide), Region.get_set_same]
  have hleftCount : left.region.get .midiPending = (n' - n : Nat) := by
    have hsmall := h.seated.word
    rw [Midi.recordSize] at hsmall
    rw [hleft, Region.add, Region.get_set_same, Region.get_set_other _ _ (by decide), hcount',
      wrapped_eq (by omega) (by omega)]
    omega
  obtain ⟨hseated, hrest⟩ := Seated.of_cursor left h.seated.size_eq h.seated.word
    (Nat.mod_lt _ h.seated.positive) (Nat.le_trans (Nat.sub_le _ _) hn') hleftIndex hleftCount
  refine ⟨hseated, ?_⟩
  have hrests : left.waiting = io'.waiting.drop n := by
    rw [hrest, hwaiting', drop_recordsFrom]
    rfl
  have hfront : io.waiting = io'.waiting.take n := by
    rw [← hlength]
    exact List.prefix_iff_eq_take.1 h.waiting
  rw [hrests, hfront, List.take_append_drop]

end

end Io
end SynthControl
