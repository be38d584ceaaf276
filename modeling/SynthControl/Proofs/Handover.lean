import SynthControl.Proofs.MidiQueue

/-!
# Messages that are handed over while others are taken

The control side writes messages into a MIDI ring while the render loop takes them out, and neither waits for
the other.  Both keep to the order of their accesses, each of which is one step; between two steps of one side
the other may go on.

* `Writing`, `Reading`, `Handover` — how far the two sides are, what they share, and which messages were
  accepted and delivered;
* `Handover.step`, `Handover.run` — the next access of a side, and accesses in any order;
* `run_enqueue`, `run_drain` — a side that is not disturbed does what `Ring.enqueue` and `Ring.drain` do;
* `Sound`, `Sound.step` — what every access keeps;
* `delivers_accepted_unless_overtaken` — **what is delivered is an initial part of what was accepted, as long
  as no message was overtaken**.

A message is written at the head, plus as many records as there are unread messages.  The writer reads these
two numbers one after the other, and the reader changes them one after the other.  When the writer has the
number of unread messages from before a drain but the head from after it, the message is overtaken: it
lies too far behind, and in its place is found what the slot held before.
-/

namespace SynthControl.Midi

/-! ### The two sides -/

/-- How far the control side is with writing a message, and whether the message was overtaken. -/
inductive Writing where
  | idle
  /-- It has read how many messages are unread. -/
  | counted (m : Message) (queued : Nat) (overtaken : Bool)
  /-- It has read the head, and knows the slot. -/
  | placed (m : Message) (slot : Nat) (overtaken : Bool)
  /-- It has written the record. -/
  | stored (m : Message) (overtaken : Bool)

/-- How far the render loop is with taking messages. -/
inductive Reading where
  | idle
  /-- It has read how many messages are unread. -/
  | counted (n : Nat)
  /-- It has read the head; of the records, `left` are still to be read, from a slot on. -/
  | reading (n left slot : Nat)
  /-- It has moved the head, and has not yet lowered the number of unread messages. -/
  | moved (n : Nat)
  deriving DecidableEq

/-- A ring and a region between two sides. -/
structure Handover where
  ring : Ring
  region : Region
  writer : Writing := .idle
  reader : Reading := .idle
  /-- The messages that were accepted, in order, and which of them were overtaken. -/
  accepted : List (Message × Bool) := []
  /-- The messages that were delivered, in order. -/
  delivered : List Message := []

/-- Who goes on. -/
inductive Move where
  /-- The writer, unless it is busy, begins to write a message. -/
  | enqueue (m : Message)
  /-- The writer goes on with its message. -/
  | write
  /-- The reader goes on with its drain, or begins one. -/
  | read

/-- The reader moves the head: a message whose slot is still to be found is overtaken. -/
def Writing.overtake : Writing → Writing
  | counted m queued _ => counted m queued true
  | w => w

/-- The reader has moved the head without lowering the count. -/
def Reading.hasMoved : Reading → Bool
  | moved _ => true
  | _ => false

namespace Handover

/-- The writer reads how many messages are unread, and rejects its message when the ring is full. -/
def offer (s : Handover) (m : Message) : Handover :=
  if s.ring.capacity ≤ Ring.pending s.region then
    { s with ring := { s.ring with dropped := s.ring.dropped + 1 } }
  else { s with writer := .counted m (Ring.pending s.region) s.reader.hasMoved }

/-- The next access of the writer. -/
def write (s : Handover) : Handover :=
  match s.writer with
  | .idle => s
  | .counted m queued o =>
    { s with writer := .placed m ((queued * recordSize + Ring.head s.region) % s.ring.slots.size) o }
  | .placed m slot o =>
    { s with ring := { s.ring with slots := Ring.store s.ring.slots slot m }, writer := .stored m o }
  | .stored m o =>
    { s with
      region := s.region.add .midiPending 1
      writer := .idle
      accepted := s.accepted ++ [(m, o)] }

/-- The next access of the reader. -/
def read (s : Handover) : Handover :=
  match s.reader with
  | .idle =>
    let n := min (Ring.pending s.region) s.ring.capacity
    if n = 0 then s else { s with reader := .counted n }
  | .counted n => { s with reader := .reading n n (Ring.head s.region % s.ring.slots.size) }
  | .reading n (left + 1) slot =>
    { s with
      reader := .reading n left ((slot + recordSize) % s.ring.slots.size)
      delivered := s.delivered ++ [Ring.load s.ring.slots slot] }
  | .reading n 0 slot =>
    { s with
      region := s.region.set .midiIndex slot
      reader := .moved n
      writer := s.writer.overtake }
  | .moved n => { s with region := s.region.add .midiPending (-(n : Int)), reader := .idle }

/-- The next access of a side. -/
def step (s : Handover) : Move → Handover
  | .enqueue m =>
    match s.writer with
    | .idle => s.offer m
    | _ => s
  | .write => s.write
  | .read => s.read

/-- Accesses of the two sides, in any order. -/
def run (s : Handover) (moves : List Move) : Handover := moves.foldl step s

/-- The messages that were accepted before the message of a number. -/
def past (s : Handover) (k : Nat) : List Message := (s.accepted.take k).map Prod.fst

/-! ### A side that is not disturbed -/

/-- A writer that is not disturbed enqueues its message. -/
theorem run_enqueue (s : Handover) (m : Message) (hidle : s.writer = .idle) :
    let t := s.run [.enqueue m, .write, .write, .write]
    (t.ring, t.region) = (s.ring.enqueue s.region m).2 ∧ t.writer = .idle ∧ t.reader = s.reader ∧
      t.delivered = s.delivered ∧
      t.accepted = s.accepted ++
        if (s.ring.enqueue s.region m).1 then [(m, s.reader.hasMoved)] else [] := by
  by_cases hfull : s.ring.capacity ≤ Ring.pending s.region
  · simp [run, step, write, offer, hidle, Ring.enqueue, hfull]
  · simp [run, step, write, offer, hidle, Ring.enqueue, hfull]

/-- A reader that is not disturbed reads its records one after another. -/
theorem run_records (s : Handover) {n left slot : Nat} (h : s.reader = .reading n left slot) :
    s.run (List.replicate left .read) =
      { s with
        reader := .reading n 0 (Ring.advance s.ring.slots.size left slot)
        delivered := s.delivered ++ Ring.records s.ring.slots left slot } := by
  induction left generalizing s slot with
  | zero =>
    rw [Ring.advance, Ring.records, List.append_nil, ← h]
    rfl
  | succ left ih =>
    have hread : s.read =
        { s with
          reader := .reading n left ((slot + recordSize) % s.ring.slots.size)
          delivered := s.delivered ++ [Ring.load s.ring.slots slot] } := by
      rw [read, h]
    show s.read.run (List.replicate left .read) = _
    rw [hread, ih _ rfl, Ring.advance, Ring.records, List.append_assoc]
    rfl

/-- A reader that is not disturbed drains the ring, and overtakes a message whose slot is still to be found. -/
theorem run_drain (s : Handover) (hidle : s.reader = .idle)
    (hsome : min (Ring.pending s.region) s.ring.capacity ≠ 0) :
    s.run (List.replicate (min (Ring.pending s.region) s.ring.capacity + 4) .read) =
      { s with
        region := (s.ring.drain s.region).2
        writer := s.writer.overtake
        delivered := s.delivered ++ (s.ring.drain s.region).1 } := by
  obtain ⟨n, hn⟩ : ∃ n, n = min (Ring.pending s.region) s.ring.capacity := ⟨_, rfl⟩
  rw [← hn] at hsome
  have hdrain : s.ring.drain s.region =
      (Ring.records s.ring.slots n (Ring.head s.region % s.ring.slots.size),
        (s.region.set .midiIndex
          (Ring.advance s.ring.slots.size n (Ring.head s.region % s.ring.slots.size))).add
          .midiPending (-(n : Int))) := by
    simp only [Ring.drain, ← hn, if_neg hsome]
  have hbegun : s.read.read =
      { s with reader := .reading n n (Ring.head s.region % s.ring.slots.size) } := by
    have hcounted : s.read = { s with reader := .counted n } := by
      simp only [read, hidle, ← hn, if_neg hsome]
    rw [hcounted]
    rfl
  have hsplit : List.replicate (n + 4) Move.read =
      .read :: .read :: (List.replicate n .read ++ [.read, .read]) := by
    rw [show n + 4 = 2 + (n + 2) by omega, List.replicate_add, List.replicate_add]
    rfl
  have hrun : s.run (List.replicate (n + 4) .read) =
      (s.read.read.run (List.replicate n .read)).read.read := by
    rw [hsplit, run, List.foldl_cons, List.foldl_cons, List.foldl_append]
    rfl
  rw [← hn, hrun, hbegun, run_records _ rfl, hdrain]
  simp only [read, hidle]

end Handover

/-! ### What every access keeps -/

/-- The record that a slot holds at first. -/
def blank : Message := ⟨0, 0, 0⟩

/-- What may be found in the place of a message: the message, or, when it was overtaken, a blank record or a
message that was accepted before. -/
def Found (past : List Message) (a : Message × Bool) (found : Message) : Prop :=
  if a.2 then found = blank ∨ found ∈ past else found = a.1

/-- What the writer knows, when `accepted` messages were accepted, `delivered` were delivered, the head was
moved past `moved` and the count was lowered by `lowered`. -/
def Writing.Knows (slots : Array Int) (c moved lowered delivered : Nat) (accepted : List Message) :
    Writing → Prop
  | .idle => True
  | .counted _ queued o =>
    queued < c ∧ accepted.length ≤ queued + lowered ∧
      if o then accepted.length < queued + moved else accepted.length = queued + moved
  | .placed _ slot o =>
    accepted.length < lowered + c ∧
      ∃ p, slot = recordSize * (p % c) ∧ p < delivered + c ∧
        if o then accepted.length < p else accepted.length = p
  | .stored m o =>
    accepted.length < lowered + c ∧
      Found accepted (m, o) (Ring.load slots (recordSize * (accepted.length % c)))

/-- What the reader knows, when `accepted` messages were accepted, `delivered` were delivered, the head was
moved past `moved` and the count was lowered by `lowered`. -/
def Reading.Knows (c moved lowered delivered accepted : Nat) : Reading → Prop
  | .idle => moved = lowered ∧ delivered = lowered
  | .counted n => moved = lowered ∧ delivered = lowered ∧ 0 < n ∧ lowered + n ≤ accepted
  | .reading n left slot =>
    moved = lowered ∧ delivered + left = lowered + n ∧ left ≤ n ∧ 0 < n ∧ lowered + n ≤ accepted ∧
      slot = recordSize * (delivered % c)
  | .moved n => moved = lowered + n ∧ delivered = lowered + n ∧ 0 < n ∧ lowered + n ≤ accepted

/-- Whatever the reader does, it counts after it moves, moves after it delivers, and delivers what was
accepted. -/
theorem Reading.Knows.ordered {c moved lowered delivered accepted : Nat} {reader : Reading}
    (h : reader.Knows c moved lowered delivered accepted) (hlowered : lowered ≤ accepted) :
    lowered ≤ moved ∧ moved ≤ delivered ∧ delivered ≤ accepted := by
  cases reader <;> simp only [Knows] at h <;> omega

/-- The two sides have handed over messages soundly: the head was moved past `moved` messages, and the count
was lowered by `lowered`. -/
structure Sound (c moved lowered : Nat) (s : Handover) : Prop where
  positive : 0 < c
  capacity_eq : s.ring.capacity = c
  size_eq : s.ring.slots.size = recordSize * c
  lowered_le : lowered ≤ s.accepted.length
  within : s.accepted.length ≤ lowered + c
  pending_eq : s.region.get .midiPending = (s.accepted.length - lowered : Nat)
  index_eq : s.region.get .midiIndex = (recordSize * (moved % c) : Nat)
  writer : s.writer.Knows s.ring.slots c moved lowered s.delivered.length (s.past s.accepted.length)
  reader : s.reader.Knows c moved lowered s.delivered.length s.accepted.length
  /-- A record is blank or of a message that was accepted or is about to be. -/
  records : ∀ j, Ring.load s.ring.slots (recordSize * (j % c)) = blank ∨
    Ring.load s.ring.slots (recordSize * (j % c)) ∈ s.past s.accepted.length ∨
      ∃ o, s.writer = .stored (Ring.load s.ring.slots (recordSize * (j % c))) o
  waiting : ∀ k a, s.delivered.length ≤ k → s.accepted[k]? = some a →
    Found (s.past k) a (Ring.load s.ring.slots (recordSize * (k % c)))
  given : ∀ k a m, s.accepted[k]? = some a → s.delivered[k]? = some m → Found (s.past k) a m

/-- The records of numbers less than a round apart do not overlap. -/
theorem Ring.load_store_round {slots : Array Int} {c p k : Nat} (m : Message) (hne : p ≠ k) (hpk : p < k + c)
    (hkp : k < p + c) :
    load (store slots (recordSize * (p % c)) m) (recordSize * (k % c)) = load slots (recordSize * (k % c)) := by
  apply load_store_other
  apply apart
  rcases Nat.lt_or_gt_of_ne hne with h | h
  · exact (mod_ne_of_lt_add h hkp).symm
  · exact mod_ne_of_lt_add h hpk

/-- The records of a new ring are blank. -/
theorem Ring.load_replicate (n i : Nat) : load (Array.replicate n 0) i = blank := by
  have hslot : ∀ j, (Array.replicate n (0 : Int)).getD j 0 = 0 := by
    intro j
    rw [Array.getD_eq_getD_getElem?, Array.getElem?_replicate]
    split <;> rfl
  rw [load, hslot, hslot, hslot, blank]

theorem Handover.length_past (s : Handover) : (s.past s.accepted.length).length = s.accepted.length := by
  rw [past, List.take_length, List.length_map]

namespace Sound

variable {c moved lowered : Nat} {s : Handover}

theorem pending_nat (h : Sound c moved lowered s) :
    Ring.pending s.region = s.accepted.length - lowered := by
  rw [Ring.pending, h.pending_eq, Int.toNat_natCast]

theorem head_eq (h : Sound c moved lowered s) : Ring.head s.region = recordSize * (moved % c) := by
  rw [Ring.head, h.index_eq, Int.toNat_natCast]

theorem ordered (h : Sound c moved lowered s) :
    lowered ≤ moved ∧ moved ≤ s.delivered.length ∧ s.delivered.length ≤ s.accepted.length :=
  h.reader.ordered h.lowered_le

/-- The reader has moved the head without lowering the count exactly when the two numbers differ. -/
theorem hasMoved_iff (h : Sound c moved lowered s) : s.reader.hasMoved = true ↔ lowered < moved := by
  have hreader := h.reader
  cases hr : s.reader <;> rw [hr] at hreader
  case moved n => exact ⟨fun _ => by simp only [Reading.Knows] at hreader; omega, fun _ => rfl⟩
  all_goals
    exact ⟨fun hf => Bool.noConfusion hf, fun hlt => by simp only [Reading.Knows] at hreader; omega⟩

/-- The writer begins with a message. -/
theorem offer (h : Sound c moved lowered s) (hidle : s.writer = .idle) (m : Message) :
    Sound c moved lowered (s.offer m) := by
  rw [Handover.offer]
  split
  · exact ⟨h.positive, h.capacity_eq, h.size_eq, h.lowered_le, h.within, h.pending_eq, h.index_eq, h.writer,
      h.reader, h.records, h.waiting, h.given⟩
  · next hroom =>
    have hordered := h.ordered
    have hle := h.lowered_le
    have hmoved := h.hasMoved_iff
    rw [h.capacity_eq, h.pending_nat] at hroom
    refine ⟨h.positive, h.capacity_eq, h.size_eq, h.lowered_le, h.within, h.pending_eq, h.index_eq, ?_,
      h.reader, ?_, h.waiting, h.given⟩
    · refine ⟨?_, ?_, ?_⟩
      · rw [h.pending_nat]
        omega
      · show (s.past s.accepted.length).length ≤ _
        rw [h.pending_nat, Handover.length_past]
        omega
      · show if s.reader.hasMoved then (s.past s.accepted.length).length < _
          else (s.past s.accepted.length).length = _
        rw [h.pending_nat, Handover.length_past]
        split
        · next hm => have := hmoved.1 hm; omega
        · next hm => have := mt hmoved.2 hm; omega
    · intro j
      rcases h.records j with hb | hp | ⟨o, ho⟩
      · exact .inl hb
      · exact .inr (.inl hp)
      · rw [hidle] at ho
        cases ho

/-- The writer reads the head. -/
theorem place (h : Sound c moved lowered s) {m : Message} {queued : Nat} {o : Bool}
    (hw : s.writer = .counted m queued o) : Sound c moved lowered s.write := by
  obtain ⟨hroom, hcount, hflag⟩ : (Writing.counted m queued o).Knows s.ring.slots c moved lowered
      s.delivered.length (s.past s.accepted.length) := hw ▸ h.writer
  have hordered := h.ordered
  have hslot : (queued * recordSize + Ring.head s.region) % s.ring.slots.size =
      recordSize * ((queued + moved) % c) := by
    rw [h.head_eq, h.size_eq, Nat.mul_comm queued, ← Nat.mul_add, Nat.mul_mod_mul_left, Nat.add_mod_mod]
  rw [Handover.length_past] at hcount hflag
  have hplace : queued + moved < s.delivered.length + c := by omega
  simp only [Handover.write, hw]
  refine ⟨h.positive, h.capacity_eq, h.size_eq, h.lowered_le, h.within, h.pending_eq, h.index_eq, ?_,
    h.reader, ?_, h.waiting, h.given⟩
  · show (s.past s.accepted.length).length < lowered + c ∧ ∃ p, _ = recordSize * (p % c) ∧ _ ∧
      if o then (s.past s.accepted.length).length < p else (s.past s.accepted.length).length = p
    rw [Handover.length_past]
    exact ⟨by omega, queued + moved, hslot, hplace, hflag⟩
  · intro j
    rcases h.records j with hb | hp | ⟨o, ho⟩
    · exact .inl hb
    · exact .inr (.inl hp)
    · rw [hw] at ho
      cases ho

/-- The writer writes the record: a message that was not overtaken comes to its place, and one that was
overtaken does not. -/
theorem store (h : Sound c moved lowered s) {m : Message} {slot : Nat} {o : Bool}
    (hw : s.writer = .placed m slot o) : Sound c moved lowered s.write := by
  obtain ⟨hroom, p, rfl, hp, hflag⟩ : (Writing.placed m slot o).Knows s.ring.slots c moved lowered
      s.delivered.length (s.past s.accepted.length) := hw ▸ h.writer
  have hordered := h.ordered
  rw [Handover.length_past] at hroom hflag
  have hbehind : s.accepted.length ≤ p := by split at hflag <;> omega
  -- a slot holds its record still, or the new one
  have hslots : ∀ j, Ring.load (Ring.store s.ring.slots (recordSize * (p % c)) m) (recordSize * (j % c)) =
      if j % c = p % c then m else Ring.load s.ring.slots (recordSize * (j % c)) := by
    intro j
    split
    · next heq =>
      rw [heq, Ring.load_store_same]
      rw [h.size_eq, show recordSize * (p % c) + recordSize = recordSize * (p % c + 1) from rfl]
      exact Nat.mul_le_mul_left _ (Nat.mod_lt _ h.positive)
    · next hne => exact Ring.load_store_other _ _ (Ring.apart (Ne.symm hne))
  have hold : ∀ j, Ring.load s.ring.slots (recordSize * (j % c)) = blank ∨
      Ring.load s.ring.slots (recordSize * (j % c)) ∈ s.past s.accepted.length := by
    intro j
    rcases h.records j with hb | hp | ⟨o, ho⟩
    · exact .inl hb
    · exact .inr hp
    · rw [hw] at ho
      cases ho
  simp only [Handover.write, hw]
  refine ⟨h.positive, h.capacity_eq, (Ring.size_store _ _ _).trans h.size_eq, h.lowered_le, h.within,
    h.pending_eq, h.index_eq, ?_, h.reader, ?_, ?_, h.given⟩
  · show (s.past s.accepted.length).length < lowered + c ∧
      Found (s.past s.accepted.length) (m, o)
        (Ring.load (Ring.store s.ring.slots _ m) (recordSize * ((s.past s.accepted.length).length % c)))
    rw [Handover.length_past, hslots, Found]
    refine ⟨hroom, ?_⟩
    cases o with
    | false =>
      have hplace : s.accepted.length = p := hflag
      rw [hplace, if_pos rfl]
      rfl
    | true =>
      have hplace : s.accepted.length < p := hflag
      rw [if_neg (mod_ne_of_lt_add hplace (by omega)).symm]
      exact hold _
  · intro j
    show Ring.load (Ring.store s.ring.slots _ m) _ = _ ∨ _
    rw [hslots]
    split
    · exact .inr (.inr ⟨o, rfl⟩)
    · exact (hold j).imp_right .inl
  · intro k a hk ha
    have hlt : k < s.accepted.length := (List.getElem?_eq_some_iff.1 ha).1
    have hge : s.delivered.length ≤ k := hk
    show Found _ _ (Ring.load (Ring.store s.ring.slots _ m) _)
    rw [Ring.load_store_round m (by omega) (by omega) (by omega)]
    exact h.waiting k a hk ha

/-- The writer counts its message, which is thereby accepted. -/
theorem accept (h : Sound c moved lowered s) (hword : recordSize * c < 2 ^ 31) {m : Message} {o : Bool}
    (hw : s.writer = .stored m o) : Sound c moved lowered s.write := by
  obtain ⟨hroom, hfound⟩ : (Writing.stored m o).Knows s.ring.slots c moved lowered
      s.delivered.length (s.past s.accepted.length) := hw ▸ h.writer
  have hordered := h.ordered
  have hle := h.lowered_le
  rw [recordSize] at hword
  rw [Handover.length_past] at hroom hfound
  have hlength : (s.accepted ++ [(m, o)]).length = s.accepted.length + 1 := by simp
  simp only [Handover.write, hw]
  -- the messages before another are the same as they were
  have hpast : ∀ k, k ≤ s.accepted.length →
      ((s.accepted ++ [(m, o)]).take k).map Prod.fst = s.past k := by
    intro k hk
    rw [List.take_append_of_le_length hk]
    rfl
  have hall : ((s.accepted ++ [(m, o)]).take (s.accepted ++ [(m, o)]).length).map Prod.fst =
      s.past s.accepted.length ++ [m] := by
    rw [List.take_length, List.map_append, Handover.past, List.take_length]
    rfl
  have hlast : ∀ k a, (s.accepted ++ [(m, o)])[k]? = some a →
      s.accepted[k]? = some a ∨ k = s.accepted.length ∧ a = (m, o) := by
    intro k a ha
    rcases Nat.lt_trichotomy k s.accepted.length with hk | hk | hk
    · exact .inl (List.getElem?_append_left hk ▸ ha)
    · rw [hk, List.getElem?_concat_length] at ha
      exact .inr ⟨hk, (Option.some.inj ha).symm⟩
    · rw [List.getElem?_eq_none (by rw [hlength]; omega)] at ha
      cases ha
  refine ⟨h.positive, h.capacity_eq, h.size_eq, ?_, ?_, ?_, ?_, trivial, ?_, ?_, ?_, ?_⟩
  · rw [hlength]
    omega
  · rw [hlength]
    omega
  · show (s.region.add .midiPending 1).get .midiPending = ((s.accepted ++ [(m, o)]).length - lowered : Nat)
    rw [Region.add, Region.get_set_same, h.pending_eq, hlength, wrapped_eq (by omega) (by omega)]
    omega
  · exact (Region.get_set_other _ _ (by decide)).trans h.index_eq
  · show s.reader.Knows c moved lowered s.delivered.length (s.accepted ++ [(m, o)]).length
    have hreader := h.reader
    rw [hlength]
    cases hr : s.reader <;> rw [hr] at hreader <;> simp only [Reading.Knows] at hreader ⊢ <;> omega
  · intro j
    show _ = _ ∨ _ ∈ ((s.accepted ++ [(m, o)]).take _).map Prod.fst ∨ _
    rw [hall]
    rcases h.records j with hb | hp | ⟨o', ho'⟩
    · exact .inl hb
    · exact .inr (.inl (List.mem_append_left _ hp))
    · rw [hw] at ho'
      injection ho' with hm
      exact .inr (.inl (List.mem_append_right _ (List.mem_singleton.2 hm.symm)))
  · intro k a hk ha
    rcases hlast k a ha with ha | ⟨rfl, rfl⟩
    · rw [Handover.past, hpast k (Nat.le_of_lt (List.getElem?_eq_some_iff.1 ha).1)]
      exact h.waiting k a hk ha
    · rw [Handover.past, hpast _ (Nat.le_refl _)]
      exact hfound
  · intro k a m' ha hm'
    have hk : k < s.delivered.length := (List.getElem?_eq_some_iff.1 hm').1
    rcases hlast k a ha with ha | ⟨rfl, rfl⟩
    · rw [Handover.past, hpast k (by omega)]
      exact h.given k a m' ha hm'
    · omega

/-- The reader reads how many messages are unread. -/
theorem begin (h : Sound c moved lowered s) (hr : s.reader = .idle) : Sound c moved lowered s.read := by
  obtain ⟨hmoved, hdelivered⟩ : Reading.idle.Knows c moved lowered s.delivered.length s.accepted.length :=
    hr ▸ h.reader
  have hle := h.lowered_le
  have hwithin := h.within
  have hcount : min (Ring.pending s.region) s.ring.capacity = s.accepted.length - lowered := by
    rw [h.pending_nat, h.capacity_eq]
    omega
  simp only [Handover.read, hr, hcount]
  split
  · exact h
  · next hsome =>
    have hlast : lowered + (s.accepted.length - lowered) ≤ s.accepted.length := by omega
    exact ⟨h.positive, h.capacity_eq, h.size_eq, h.lowered_le, h.within, h.pending_eq, h.index_eq, h.writer,
      ⟨hmoved, hdelivered, Nat.pos_of_ne_zero hsome, hlast⟩, h.records, h.waiting, h.given⟩

/-- The reader reads the head. -/
theorem aim (h : Sound c moved lowered s) {n : Nat} (hr : s.reader = .counted n) :
    Sound c moved lowered s.read := by
  obtain ⟨hmoved, hdelivered, hpos, hle⟩ : (Reading.counted n).Knows c moved lowered s.delivered.length
      s.accepted.length := hr ▸ h.reader
  have hslot : Ring.head s.region % s.ring.slots.size = recordSize * (s.delivered.length % c) := by
    rw [h.head_eq, h.size_eq, Nat.mul_mod_mul_left, Nat.mod_mod, hmoved, hdelivered]
  simp only [Handover.read, hr]
  exact ⟨h.positive, h.capacity_eq, h.size_eq, h.lowered_le, h.within, h.pending_eq, h.index_eq, h.writer,
    ⟨hmoved, by rw [hdelivered], Nat.le_refl _, hpos, hle, hslot⟩, h.records, h.waiting, h.given⟩

/-- The reader reads a record, which is in the place of the next message. -/
theorem take (h : Sound c moved lowered s) {n left slot : Nat} (hr : s.reader = .reading n (left + 1) slot) :
    Sound c moved lowered s.read := by
  obtain ⟨hmoved, hleft, hlen, hpos, hle, hslot⟩ : (Reading.reading n (left + 1) slot).Knows c moved lowered
      s.delivered.length s.accepted.length := hr ▸ h.reader
  have hlength : (s.delivered ++ [Ring.load s.ring.slots slot]).length = s.delivered.length + 1 := by simp
  have hnext : (slot + recordSize) % s.ring.slots.size =
      recordSize * ((s.delivered ++ [Ring.load s.ring.slots slot]).length % c) := by
    rw [hlength, hslot, h.size_eq, Ring.next_slot, Nat.mod_add_mod]
  simp only [Handover.read, hr]
  refine ⟨h.positive, h.capacity_eq, h.size_eq, h.lowered_le, h.within, h.pending_eq, h.index_eq, ?_,
    ⟨hmoved, ?_, by omega, hpos, hle, hnext⟩, h.records, ?_, ?_⟩
  · have hwriter := h.writer
    show s.writer.Knows _ c moved lowered (s.delivered ++ [_]).length (s.past s.accepted.length)
    rw [hlength]
    cases hw : s.writer <;> rw [hw] at hwriter
    case placed m slot o =>
      obtain ⟨hroom, p, hp, hlt, hflag⟩ := hwriter
      exact ⟨hroom, p, hp, by omega, hflag⟩
    all_goals exact hwriter
  · rw [hlength]
    omega
  · intro k a hk ha
    exact h.waiting k a (by rw [hlength] at hk; omega) ha
  · intro k a m ha hm
    rcases Nat.lt_or_ge k s.delivered.length with hk | hk
    · exact h.given k a m ha (List.getElem?_append_left hk ▸ hm)
    · have hkeq : k = s.delivered.length := by
        have hlt := (List.getElem?_eq_some_iff.1 hm).1
        rw [hlength] at hlt
        omega
      rw [hkeq, List.getElem?_concat_length] at hm
      have hload : m = Ring.load s.ring.slots (recordSize * (k % c)) := by
        rw [← Option.some.inj hm, hslot, hkeq]
      rw [hload]
      exact h.waiting k a hk ha

/-- The reader moves the head, and thereby overtakes a message whose slot is still to be found. -/
theorem move (h : Sound c moved lowered s) {n slot : Nat} (hr : s.reader = .reading n 0 slot) :
    Sound c (moved + n) lowered s.read := by
  obtain ⟨hmoved, hleft, -, hpos, hle, hslot⟩ : (Reading.reading n 0 slot).Knows c moved lowered
      s.delivered.length s.accepted.length := hr ▸ h.reader
  have hwriter := h.writer
  simp only [Handover.read, hr]
  refine ⟨h.positive, h.capacity_eq, h.size_eq, h.lowered_le, h.within, ?_, ?_, ?_,
    ⟨by rw [hmoved], by omega, hpos, hle⟩, ?_, h.waiting, h.given⟩
  · exact (Region.get_set_other _ _ (by decide)).trans h.pending_eq
  · show (s.region.set .midiIndex slot).get .midiIndex = _
    rw [Region.get_set_same, hslot, hmoved, ← hleft]
    rfl
  · show s.writer.overtake.Knows s.ring.slots c (moved + n) lowered s.delivered.length
      (s.past s.accepted.length)
    cases hw : s.writer <;> rw [hw] at hwriter
    case counted m queued o =>
      obtain ⟨hroom, hcount, -⟩ := hwriter
      exact ⟨hroom, hcount, by rw [if_pos rfl]; omega⟩
    all_goals exact hwriter
  · intro j
    rcases h.records j with hb | hp | ⟨o, ho⟩
    · exact .inl hb
    · exact .inr (.inl hp)
    · exact .inr (.inr ⟨o, by rw [ho]; rfl⟩)

/-- The reader lowers the count. -/
theorem lower (h : Sound c moved lowered s) (hword : recordSize * c < 2 ^ 31) {n : Nat}
    (hr : s.reader = .moved n) : Sound c moved (lowered + n) s.read := by
  obtain ⟨hmoved, hdelivered, hpos, hle⟩ : (Reading.moved n).Knows c moved lowered s.delivered.length
      s.accepted.length := hr ▸ h.reader
  have hwriter := h.writer
  have hwithin : s.accepted.length ≤ lowered + n + c := by have := h.within; omega
  rw [recordSize] at hword
  simp only [Handover.read, hr]
  refine ⟨h.positive, h.capacity_eq, h.size_eq, hle, hwithin, ?_, ?_, ?_, ⟨hmoved, hdelivered⟩, h.records,
    h.waiting, h.given⟩
  · show (s.region.add .midiPending (-(n : Int))).get .midiPending = _
    rw [Region.add, Region.get_set_same, h.pending_eq, wrapped_eq (by omega) (by omega)]
    show _ = ((s.accepted.length - (lowered + n) : Nat) : Int)
    omega
  · exact (Region.get_set_other _ _ (by decide)).trans h.index_eq
  · show s.writer.Knows _ c moved (lowered + n) s.delivered.length (s.past s.accepted.length)
    cases hw : s.writer <;> rw [hw] at hwriter
    case idle => trivial
    case counted m queued o =>
      obtain ⟨hroom, hcount, hflag⟩ := hwriter
      exact ⟨hroom, by omega, hflag⟩
    all_goals
      obtain ⟨hroom, hplace⟩ := hwriter
      exact ⟨by omega, hplace⟩

/-- **Every access keeps the hand-over sound.** -/
theorem step (h : Sound c moved lowered s) (hword : recordSize * c < 2 ^ 31) (a : Move) :
    ∃ moved' lowered', Sound c moved' lowered' (s.step a) := by
  cases a with
  | enqueue m =>
    rw [Handover.step]
    split
    · next hidle => exact ⟨_, _, h.offer hidle m⟩
    · exact ⟨_, _, h⟩
  | write =>
    rw [Handover.step]
    cases hw : s.writer with
    | idle => exact ⟨_, _, by rw [Handover.write, hw]; exact h⟩
    | counted m queued o => exact ⟨_, _, h.place hw⟩
    | placed m slot o => exact ⟨_, _, h.store hw⟩
    | stored m o => exact ⟨_, _, h.accept hword hw⟩
  | read =>
    rw [Handover.step]
    cases hr : s.reader with
    | idle => exact ⟨_, _, h.begin hr⟩
    | counted n => exact ⟨_, _, h.aim hr⟩
    | reading n left slot =>
      cases left with
      | zero => exact ⟨_, _, h.move hr⟩
      | succ left => exact ⟨_, _, h.take hr⟩
    | moved n => exact ⟨_, _, h.lower hword hr⟩

/-- Accesses in any order keep the hand-over sound. -/
theorem run (h : Sound c moved lowered s) (hword : recordSize * c < 2 ^ 31) (moves : List Move) :
    ∃ moved' lowered', Sound c moved' lowered' (s.run moves) := by
  induction moves generalizing s moved lowered with
  | nil => exact ⟨_, _, h⟩
  | cons a moves ih =>
    obtain ⟨_, _, hstep⟩ := h.step hword a
    exact ih hstep

/-- Nothing was handed over yet through a new ring and a pristine region. -/
theorem create (capacity : Nat) {region : Region} (hregion : region.isPristine = true) :
    Sound (max capacity 1) 0 0 { ring := Ring.create capacity, region := region } := by
  have hinitial := Region.isPristine_iff.1 hregion
  refine ⟨by omega, rfl, Array.size_replicate, Nat.le_refl _, Nat.zero_le _, hinitial .midiPending, ?_, trivial,
    ⟨rfl, rfl⟩, ?_, ?_, ?_⟩
  · rw [Nat.zero_mod]
    exact hinitial .midiIndex
  · intro j
    exact .inl (Ring.load_replicate _ _)
  · intro k a _ ha
    cases ha
  · intro k a m ha
    cases ha

end Sound

/-! ### What is delivered -/

/-- **What is delivered is an initial part of what was accepted, unless a message was overtaken.**  In the place
of a message that was overtaken a blank record is delivered, or once more a message that was accepted before. -/
theorem delivers_accepted_unless_overtaken (capacity : Nat) (hword : recordSize * max capacity 1 < 2 ^ 31)
    (region : Region) (hregion : region.isPristine = true) (moves : List Move) :
    let s := Handover.run { ring := Ring.create capacity, region := region } moves
    let accepted := s.accepted.map Prod.fst
    let overtaken := (s.accepted.take s.delivered.length).any Prod.snd
    s.delivered.length ≤ accepted.length ∧
      (∀ (k : Nat) a m, s.accepted[k]? = some a → s.delivered[k]? = some m → Found (accepted.take k) a m) ∧
      (overtaken = false → s.delivered <+: accepted) ∧
      (accepted.Nodup → blank ∉ accepted → s.delivered <+: accepted → overtaken = false) := by
  intro s accepted overtaken
  obtain ⟨moved, lowered, h⟩ := (Sound.create capacity hregion).run hword moves
  have hle : s.delivered.length ≤ accepted.length := by
    rw [List.length_map]
    exact h.ordered.2.2
  have hfound : ∀ (k : Nat) a m, s.accepted[k]? = some a → s.delivered[k]? = some m →
      Found (accepted.take k) a m := by
    intro k a m ha hm
    rw [← List.map_take]
    exact h.given k a m ha hm
  refine ⟨hle, hfound, ?_, ?_⟩
  · intro hnone
    rw [List.prefix_iff_getElem?]
    intro k hk
    have hlt : k < s.accepted.length := by
      rw [List.length_map] at hle
      omega
    have hmem : s.accepted[k] ∈ s.accepted.take s.delivered.length :=
      List.mem_of_getElem? ((List.getElem?_take_of_lt hk).trans (List.getElem?_eq_getElem hlt))
    have hplace := hfound k _ _ (List.getElem?_eq_getElem hlt) (List.getElem?_eq_getElem hk)
    rw [Found, if_neg (List.any_eq_false.1 hnone _ hmem)] at hplace
    rw [List.getElem?_map, List.getElem?_eq_getElem hlt, hplace]
    rfl
  · intro hdistinct hblank hprefix
    rw [List.any_eq_false]
    intro a hmem hovertaken
    obtain ⟨k, ha⟩ := List.mem_iff_getElem?.1 hmem
    have hk : k < s.delivered.length := by
      have hlt := (List.getElem?_eq_some_iff.1 ha).1
      rw [List.length_take] at hlt
      omega
    rw [List.getElem?_take_of_lt hk] at ha
    have hsame : accepted[k]? = some s.delivered[k] := List.prefix_iff_getElem?.1 hprefix k hk
    have hplace := hfound k a _ ha (List.getElem?_eq_getElem hk)
    rw [Found, if_pos hovertaken] at hplace
    rcases hplace with hb | hpast
    · exact hblank (hb ▸ List.mem_of_getElem? hsame)
    · have hrest : s.delivered[k] ∈ accepted.drop k :=
        List.mem_of_getElem? (i := 0) (by rw [List.getElem?_drop]; exact hsame)
      exact List.disjoint_take_drop hdistinct (Nat.le_refl k) hpast hrest

/-- A ring of two: the second message is counted after the head was moved past the first one and before that is
taken off the count, so that a blank record is delivered for it. -/
theorem delivers_accepted_unless_overtaken_two :
    let s := Handover.run { ring := Ring.create 2, region := .fresh }
      [.enqueue ⟨1, 1, 1⟩, .write, .write, .write, .read, .read, .read, .read, .enqueue ⟨2, 2, 2⟩, .write,
        .write, .write, .read, .read, .read, .read]
    recordSize * max 2 1 < 2 ^ 31 ∧ Region.fresh.isPristine = true ∧
      s.accepted = [(⟨1, 1, 1⟩, false), (⟨2, 2, 2⟩, true)] ∧ s.delivered = [⟨1, 1, 1⟩, blank] ∧
      ¬ s.delivered <+: s.accepted.map Prod.fst := by
  intro s
  have haccepted : s.accepted = [(⟨1, 1, 1⟩, false), (⟨2, 2, 2⟩, true)] := by decide
  have hdelivered : s.delivered = [⟨1, 1, 1⟩, blank] := by decide
  obtain ⟨-, -, -, honly⟩ :=
    delivers_accepted_unless_overtaken 2 (by decide) .fresh (by decide)
      [.enqueue ⟨1, 1, 1⟩, .write, .write, .write, .read, .read, .read, .read, .enqueue ⟨2, 2, 2⟩, .write,
        .write, .write, .read, .read, .read, .read]
  refine ⟨by decide, by decide, haccepted, hdelivered, fun hprefix => ?_⟩
  have hnone := honly (by decide) (by decide) hprefix
  rw [haccepted, hdelivered] at hnone
  exact absurd hnone (by decide)

end SynthControl.Midi
