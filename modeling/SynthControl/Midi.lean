import SynthControl.Region

/-!
# MIDI

Messages from the control side to the render loop.  The records lie in a ring of their own; the
cursors of the ring are two words of the region, so that a fresh region empties the ring.

* `Midi.Message` — a message, and the makers of channel messages;
* `Midi.Ring` — the slots, three for each message, and the number of messages that were rejected;
* `enqueue` — append a message, or reject it when the ring is full;
* `drain` — take out every unread message.

Main statements: `size_slots_enqueue`, `enqueue_eq_false_iff` (rejected exactly when full).
-/

namespace SynthControl.Midi

/-- A message as it is queued. -/
structure Message where
  /-- Status byte. -/
  status : Int
  /-- First data byte. -/
  data1 : Int
  /-- Second data byte. -/
  data2 : Int
  deriving DecidableEq, Repr, Inhabited

/-- The status byte of a channel message. -/
def channelStatus (code channel : UInt8) : Int := ((code ||| (channel &&& 0x0F)).toNat : Int)

/-- The seven bits of a data byte. -/
def sevenBits (b : UInt8) : Int := ((b &&& 0x7F).toNat : Int)

/-- A note begins. -/
def Message.noteOn (channel note velocity : UInt8) : Message :=
  ⟨channelStatus 0x90 channel, sevenBits note, sevenBits velocity⟩

/-- A note ends. -/
def Message.noteOff (channel note : UInt8) : Message :=
  ⟨channelStatus 0x80 channel, sevenBits note, 0⟩

/-- A controller moves. -/
def Message.controlChange (channel controller value : UInt8) : Message :=
  ⟨channelStatus 0xB0 channel, sevenBits controller, sevenBits value⟩

/-- The slots of one message. -/
def recordSize : Nat := 3

/-- The records of a ring, and the number of rejected messages. -/
structure Ring where
  /-- Three slots for each message. -/
  slots : Array Int
  /-- The largest number of unread messages. -/
  capacity : Nat
  dropped : Nat := 0

namespace Ring

/-- An empty ring; a capacity of zero counts as one. -/
def create (capacity : Nat) : Ring :=
  { slots := Array.replicate (recordSize * max capacity 1) 0, capacity := max capacity 1 }

/-- The number of unread messages according to a region. -/
def pending (region : Region) : Nat := (region.get .midiPending).toNat

/-- The slot of the oldest unread message according to a region. -/
def head (region : Region) : Nat := (region.get .midiIndex).toNat

/-- Write the record of a message. -/
def store (slots : Array Int) (slot : Nat) (m : Message) : Array Int :=
  ((slots.setIfInBounds slot m.status).setIfInBounds (slot + 1) m.data1).setIfInBounds (slot + 2)
    m.data2

/-- Read the record of a message. -/
def load (slots : Array Int) (slot : Nat) : Message :=
  ⟨slots.getD slot 0, slots.getD (slot + 1) 0, slots.getD (slot + 2) 0⟩

/-- Append a message.  When the ring is full the message is rejected and counted. -/
def enqueue (r : Ring) (region : Region) (m : Message) : Bool × Ring × Region :=
  let queued := pending region
  if r.capacity ≤ queued then (false, { r with dropped := r.dropped + 1 }, region)
  else
    let slot := (queued * recordSize + head region) % r.slots.size
    (true, { r with slots := store r.slots slot m }, region.add .midiPending 1)

/-- The `n` records from a slot on, around the end of the ring. -/
def records (slots : Array Int) : Nat → Nat → List Message
  | 0, _ => []
  | n + 1, i => load slots i :: records slots n ((i + recordSize) % slots.size)

/-- The slot that is `n` records further on. -/
def advance (size : Nat) : Nat → Nat → Nat
  | 0, i => i
  | n + 1, i => advance size n ((i + recordSize) % size)

/-- Take out every unread message, oldest first: move the head past the records, then lower the count
of unread messages by the number delivered. -/
def drain (r : Ring) (region : Region) : List Message × Region :=
  let n := min (pending region) r.capacity
  if n = 0 then ([], region)
  else
    let start := head region % r.slots.size
    (records r.slots n start,
      (region.set .midiIndex (advance r.slots.size n start)).add .midiPending (-(n : Int)))

/-- The ring as text. -/
def describe (r : Ring) : String :=
  "MidiRingBuffer \x7b capacity: " ++ toString r.capacity ++ ", dropped: " ++ toString r.dropped
    ++ ", .. \x7d"

/-! ### Small facts -/

@[simp] theorem size_store (slots : Array Int) (i : Nat) (m : Message) :
    (store slots i m).size = slots.size := by
  simp [store]

/-- The number of slots never changes. -/
theorem size_slots_enqueue (r : Ring) (region : Region) (m : Message) :
    (r.enqueue region m).2.1.slots.size = r.slots.size := by
  simp only [enqueue]
  split <;> simp

/-- A message is rejected exactly when the ring is full. -/
theorem enqueue_eq_false_iff (r : Ring) (region : Region) (m : Message) :
    (r.enqueue region m).1 = false ↔ r.capacity ≤ pending region := by
  simp only [enqueue]
  split <;> simp_all

/-- As many records are delivered as were asked for. -/
@[simp] theorem length_records (slots : Array Int) (n i : Nat) :
    (records slots n i).length = n := by
  induction n generalizing i with
  | zero => rfl
  | succ n ih => simp [records, ih]

end Ring
end SynthControl.Midi
