/-!
# The shared region

A fixed block of words that control side, engine and render loop read and write, one word at a time.
Each word also counts its notifications.

* `Field` — the sixteen words, in slot order, with their names, initial values and writers;
* `wrapped` — what is left of a number in a word;
* `Region` — the words and the notification counts; `get`, `set`, `add`, `notify`, `reset`;
* `Region.Wait` — a wait for a notification: how it is entered, and how it can end.

Main statements: `get_set_same`, `get_set_other`, `get_reset` (a reset restores the initial values),
`isPristine_iff`.
-/

namespace SynthControl

/-- The side that is to write a word. -/
inductive Writer where
  | engine
  | control
  | render
  /-- A line that one side raises and another lowers. -/
  | shared
  deriving DecidableEq, Repr

/-- The name of a writer. -/
def Writer.label : Writer → String
  | engine => "Engine"
  | control => "Control"
  | render => "Render"
  | shared => "Shared"

/-- A word of the region. -/
inductive Field where
  | performing
  | rendering
  | paused
  | stop
  /-- Frames per second. -/
  | sampleRate
  /-- Frames per engine block. -/
  | blockFrames
  | outputs
  | inputs
  | wantsInput
  | wantsMidi
  /-- The slot of the oldest unread MIDI message. -/
  | midiIndex
  /-- The number of unread MIDI messages. -/
  | midiPending
  /-- Frames per render cycle. -/
  | hardwareFrames
  /-- Frames that the engine keeps ahead of the render loop. -/
  | softwareFrames
  /-- Raised at every cycle boundary and by a stop. -/
  | cycle
  | layout
  deriving DecidableEq, Repr

/-- The version of the slot layout. -/
def layoutVersion : Int := 1

namespace Field

/-- Every word, in slot order. -/
def all : List Field :=
  [performing, rendering, paused, stop, sampleRate, blockFrames, outputs, inputs, wantsInput,
    wantsMidi, midiIndex, midiPending, hardwareFrames, softwareFrames, cycle, layout]

/-- The slot of a word. -/
def slot : Field → Fin 16
  | performing => 0
  | rendering => 1
  | paused => 2
  | stop => 3
  | sampleRate => 4
  | blockFrames => 5
  | outputs => 6
  | inputs => 7
  | wantsInput => 8
  | wantsMidi => 9
  | midiIndex => 10
  | midiPending => 11
  | hardwareFrames => 12
  | softwareFrames => 13
  | cycle => 14
  | layout => 15

/-- The public name of a word. -/
def name : Field → String
  | performing => "IsPerforming"
  | rendering => "IsRendering"
  | paused => "IsPaused"
  | stop => "Stop"
  | sampleRate => "SampleRate"
  | blockFrames => "Ksmps"
  | outputs => "Nchnls"
  | inputs => "NchnlsI"
  | wantsInput => "IsRequestingMic"
  | wantsMidi => "IsRequestingRtmidi"
  | midiIndex => "RtmidiIndex"
  | midiPending => "AvailRtmidiEvents"
  | hardwareFrames => "HwBufferSize"
  | softwareFrames => "SwBufferSize"
  | cycle => "AtomicNotify"
  | layout => "LayoutVersion"

/-- The word with a public name. -/
def ofName? (s : String) : Option Field := all.find? fun f => f.name == s

/-- The value of a word in a new region and after a reset. -/
def initial : Field → Int
  | sampleRate => 44100
  | blockFrames => 32
  | outputs => 2
  | hardwareFrames => 4096
  | softwareFrames => 256
  | layout => layoutVersion
  | _ => 0

/-- The side that is to write a word. -/
def writer : Field → Writer
  | paused | stop | layout => .control
  | cycle | midiPending => .shared
  | midiIndex => .render
  | _ => .engine

theorem mem_all (f : Field) : f ∈ all := by cases f <;> decide

/-- Words lie in different slots. -/
theorem slot_injective {f g : Field} (h : f.slot = g.slot) : f = g := by
  cases f <;> cases g <;> first | rfl | exact absurd h (by decide)

end Field

/-- What a word of 32 bits with a sign holds of a number. -/
def wrapped (n : Int) : Int := Int.bmod n UInt32.size

/-- A number for which there is room is held as it is. -/
theorem wrapped_eq {n : Int} (hlow : -2147483648 ≤ n) (hhigh : n < 2147483648) : wrapped n = n := by
  have hsize : (UInt32.size : Int) = 4294967296 := rfl
  exact Int.bmod_eq_of_le (by omega) (by omega)

/-- The words, and how often each was notified. -/
structure Region where
  /-- The values, in slot order. -/
  words : Vector Int 16
  /-- The notification counts, in slot order. -/
  notices : Vector UInt32 16

namespace Region

/-- The initial value of every word, in slot order. -/
def initialWords : Vector Int 16 := ⟨(Field.all.map Field.initial).toArray, by decide⟩

/-- A new region. -/
def fresh : Region := ⟨initialWords, .replicate 16 0⟩

instance : Inhabited Region := ⟨fresh⟩

/-- The value of a word. -/
def get (r : Region) (f : Field) : Int := r.words[f.slot]

/-- Write a word. -/
def set (r : Region) (f : Field) (v : Int) : Region :=
  { r with words := r.words.set f.slot v }

/-- Add to a word. -/
def add (r : Region) (f : Field) (d : Int) : Region := r.set f (wrapped (r.get f + d))

/-- The word holds one. -/
def isSet (r : Region) (f : Field) : Bool := r.get f == 1

/-- How often a word was notified. -/
def noticeCount (r : Region) (f : Field) : UInt32 := r.notices[f.slot]

/-- Notify everyone who waits on a word. -/
def notify (r : Region) (f : Field) : Region :=
  { r with notices := r.notices.set f.slot (r.noticeCount f + 1) }

/-- Raise a word and notify everyone who waits on it. -/
def raise (r : Region) (f : Field) : Region := (r.set f 1).notify f

/-- Lower a word and notify everyone who waits on it. -/
def lower (r : Region) (f : Field) : Region := (r.set f 0).notify f

/-- Write the initial value of every word. -/
def reset (r : Region) : Region := { r with words := initialWords }

/-- The values of all words, in slot order. -/
def snapshot (r : Region) : List Int := Field.all.map r.get

/-- Every word holds its initial value. -/
def isPristine (r : Region) : Bool := Field.all.all fun f => r.get f == f.initial

/-- The words that do not hold their initial value, in slot order. -/
def changes (r : Region) : List (Field × Int) :=
  (Field.all.filter fun f => r.get f != f.initial).map fun f => (f, r.get f)

/-- The region as text. -/
def describe (r : Region) : String :=
  let pair (f : Field) : String := f.name ++ ": " ++ toString (r.get f)
  "SharedStateRegion \x7b " ++ ", ".intercalate (Field.all.map pair) ++ " \x7d"

/-! ### Reading what was written -/

@[simp] theorem get_set_same (r : Region) (f : Field) (v : Int) : (r.set f v).get f = v := by
  simp [get, set]

theorem get_set_other (r : Region) {f g : Field} (v : Int) (h : g ≠ f) :
    (r.set f v).get g = r.get g := by
  have hs : f.slot.val ≠ g.slot.val := fun hv => h (Field.slot_injective (Fin.ext hv)).symm
  simp [get, set, hs]

@[simp] theorem get_notify (r : Region) (f g : Field) : (r.notify f).get g = r.get g := rfl

@[simp] theorem get_reset (r : Region) (f : Field) : r.reset.get f = f.initial := by
  cases f <;> rfl

/-- A region is pristine exactly when every word holds its initial value. -/
theorem isPristine_iff {r : Region} : r.isPristine = true ↔ ∀ f, r.get f = f.initial := by
  simp only [isPristine, List.all_eq_true, beq_iff_eq]
  exact ⟨fun h f => h f f.mem_all, fun h f _ => h f⟩

/-! ### Waiting -/

/-- How a wait ended. -/
inductive Outcome where
  | notified
  /-- The word did not hold the expected value when the wait began. -/
  | notEqual
  | timedOut
  deriving DecidableEq, Repr

/-- A wait in progress: the word, and its notification count when the wait began. -/
structure Wait where
  field : Field
  /-- Its notification count when the wait began. -/
  since : UInt32
  deriving DecidableEq, Repr

/-- Begin to wait on a word that is expected to hold a value; `none` if it holds another one. -/
def enter? (r : Region) (f : Field) (expected : Int) : Option Wait :=
  if r.get f = expected then some ⟨f, r.noticeCount f⟩ else none

/-- The word was notified since the wait began. -/
def Wait.isOver (w : Wait) (r : Region) : Bool := r.noticeCount w.field != w.since

/-- How a wait ends that is woken for the last time, by its deadline, in this region. -/
def Wait.outcome (w : Wait) (r : Region) : Outcome := if w.isOver r then .notified else .timedOut

/-- What may happen to a region while someone waits. -/
inductive Disturbance where
  | write (f : Field) (v : Int)
  | notice (f : Field)
  | spurious
  deriving DecidableEq, Repr

/-- The region after a disturbance. -/
def disturb (r : Region) : Disturbance → Region
  | .write f v => r.set f v
  | .notice f => r.notify f
  | .spurious => r

/-- How a wait in progress ends when the disturbances happen one after another and then the deadline
passes: at the first of them after which the word was notified, or at the deadline. -/
def Wait.through (w : Wait) : List Disturbance → Region → Outcome × Region
  | [], r => (w.outcome r, r)
  | d :: ds, r => if w.isOver (r.disturb d) then (.notified, r.disturb d) else w.through ds (r.disturb d)

/-- Wait on a word that is expected to hold a value, while the disturbances happen one after another;
then the deadline passes. -/
def wait (r : Region) (f : Field) (expected : Int) (ds : List Disturbance) : Outcome × Region :=
  match r.enter? f expected with
  | none => (.notEqual, r)
  | some w => w.through ds r

end Region
end SynthControl
