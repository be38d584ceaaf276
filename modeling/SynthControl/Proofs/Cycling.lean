import SynthControl.Proofs.Meddling
import SynthControl.Proofs.Streaming
import SynthControl.Render.Device

/-!
# The cycles of the render loop

In every cycle the loop hands over messages, plays a block, takes a block in, and marks the boundary, in this order.
Meanwhile others write words, samples and messages, before each of the parts and while a callback is at work.

* `HookCall`, `Hooks.recorded` — a call of a callback, and callbacks that keep a record of their calls;
* `Gap`, `Loop.turnAmong`, `Device.turnAmong` — a turn among others, who come in between its parts;
* `Hooks.IsTame` — callbacks that do nothing but what others may do;
* `Loop.due`, `nextBlock`, `calls` — the calls that a cycle has to make, by what it finds;
* `Loop.Turned` — what a turn may do; `turnAmong_recorded` — **a turn of the loop does that**, and nothing else is
  recorded;
* `Course`, `Move`, `render_lawful` — **so it is in every turn of every run**, and the completed cycles are counted.
-/

namespace SynthControl.Render

variable {ω : Type}

/-! ### Records of calls -/

/-- A call of a callback. -/
inductive HookCall where
  /-- The MIDI handler gets a message. -/
  | handed (m : Midi.Message)
  /-- The sink gets a block, with its channel count. -/
  | played (samples : List Float) (channels : Nat)
  /-- The source gets the last block to fill it anew, with its channel count. -/
  | asked (block : List Float) (channels : Nat)
  deriving DecidableEq

/-- What a callback leaves behind, with a record of calls beside its world. -/
def Called.noting (c : Called ω) (log : List HookCall) : Called (ω × List HookCall) := ⟨(c.world, log), c.io, c.crashed⟩

/-- A MIDI handler that keeps a record. -/
def recordedHandler (f : Midi.Message → ω → Io → Called ω) (m : Midi.Message) (w : ω × List HookCall) (io : Io) :
    Called (ω × List HookCall) :=
  (f m w.1 io).noting (w.2 ++ [.handed m])

/-- Callbacks that keep a record of their calls. -/
def Hooks.recorded (h : Hooks ω) : Hooks (ω × List HookCall) where
  midi := h.midi.map recordedHandler
  sink := h.sink.map fun f samples channels w io =>
    (f samples channels w.1 io).noting (w.2 ++ [.played samples channels])
  source := h.source.map fun f block channels w io =>
    ((f block channels w.1 io).1, (f block channels w.1 io).2.noting (w.2 ++ [.asked block channels]))

/-- A loop whose callbacks keep a record. -/
def Loop.recorded (l : Loop ω) : Loop (ω × List HookCall) := ⟨l.params, l.hooks.recorded, l.input, l.run⟩

/-- A device whose callbacks keep a record, lent or not. -/
def Device.recorded (d : Device ω) : Device (ω × List HookCall) where
  realtimeClock := d.realtimeClock
  params := d.params
  hooks := d.hooks.map Hooks.recorded
  loop := d.loop.map Loop.recorded
  cycles := d.cycles
  asleep := d.asleep

/-! ### Turns among others -/

/-- Where others may come in between: before each part of a cycle. -/
inductive Gap where
  | delivery
  | output
  | input
  | boundary

namespace Loop

/-- Go on with a cycle, unless a callback has crashed. -/
def goOn (l : Loop ω) (c : Called ω) (next : ω → Io → Bool × Loop ω × ω × Io) : Bool × Loop ω × ω × Io :=
  if c.crashed then (false, { l with run := .crashed }, c.world, c.io) else next c.world c.io

theorem goOn_crashed {c : Called ω} (h : c.crashed = true) (l : Loop ω) (next : ω → Io → Bool × Loop ω × ω × Io) :
    l.goOn c next = (false, { l with run := .crashed }, c.world, c.io) := if_pos h

theorem goOn_live {c : Called ω} (h : c.crashed = false) (l : Loop ω) (next : ω → Io → Bool × Loop ω × ω × Io) :
    l.goOn c next = next c.world c.io := if_neg (by rw [h]; decide)

/-- A cycle among others. -/
def cycleAmong (others : Gap → Io → Io) (l : Loop ω) (w : ω) (io : Io) : Bool × Loop ω × ω × Io :=
  l.goOn (l.deliver w (others .delivery io)) fun w io =>
    l.goOn (l.emit w (others .output io)) fun w io =>
      let (l, c) := l.absorb w (others .input io)
      l.goOn c fun w io => (true, l, w, mark (others .boundary io))

/-- A turn among others. -/
def turnAmong (others : Gap → Io → Io) (l : Loop ω) (w : ω) (io : Io) : Bool × Loop ω × ω × Io :=
  match l.run, check io.region with
  | .running, .leave => (false, { l with run := .finished }, w, io)
  | .running, .cycle => l.cycleAmong others w io
  | _, _ => (false, l, w, io)

/-- Where nobody comes in between, it is a turn. -/
theorem turnAmong_id (l : Loop ω) (w : ω) (io : Io) : l.turnAmong (fun _ => id) w io = l.turn w io := rfl

end Loop

/-- A turn of the loop of a device, among others. -/
def Device.turnAmong (others : Gap → Io → Io) (d : Device ω) (w : ω) (m : Memory) : Device ω × ω × Memory :=
  match d.loop with
  | none => (d, w, m)
  | some l =>
    let (completed, l', w', io) := l.turnAmong others w (m.io l.params.io)
    ({ d with loop := some l', cycles := if completed then d.cycles + 1 else d.cycles }, w', m.setIo l.params.io io)

theorem Device.turnAmong_id (d : Device ω) (w : ω) (m : Memory) : d.turnAmong (fun _ => id) w m = d.turn w m := by
  rw [turnAmong, turn]
  cases d.loop with
  | none => rfl
  | some l =>
    simp only [Memory.onIo_eq, Loop.turnAmong_id]
    rfl

/-! ### What a turn may do -/

/-- Callbacks that do nothing to region and rings but what others may do.  The handler of MIDI messages is called
while messages are handed over, when nobody moves the cursor. -/
structure Hooks.IsTame (h : Hooks ω) : Prop where
  midi : ∀ f, h.midi = some f → ∀ m w (io : Io), io.Touches (f m w io).io
  sink : ∀ f, h.sink = some f → ∀ xs n w (io : Io), io.Meddles (f xs n w io).io
  source : ∀ f, h.source = some f → ∀ xs n w (io : Io), io.Meddles (f xs n w io).2.io

namespace Loop

/-- The handler that gets the messages, if the engine wants MIDI and there is one. -/
def handler? (l : Loop ω) : Option (Midi.Message → ω → Io → Called ω) :=
  if l.params.wantsMidi then l.hooks.midi else none

/-- The messages that a cycle has to hand over: those that are waiting, if there is a handler that gets them. -/
def due (l : Loop ω) (io : Io) : List Midi.Message := if l.handler?.isSome then io.waiting else []

/-- The block that a cycle has to play: the unread samples of the output ring, with silence behind them. -/
def nextBlock (l : Loop ω) (io : Io) : List Float :=
  let unread := io.bank.audio.output.contents
  unread.take (l.frames * l.outputs) ++ List.replicate (l.frames * l.outputs - unread.length) 0

/-- The call of the sink, if there is one. -/
def plays (l : Loop ω) (io : Io) : List HookCall :=
  if l.hooks.sink.isSome then [.played (l.nextBlock io) l.outputs] else []

/-- The call of the source, if the engine wants input and there is one. -/
def asks (l : Loop ω) : List HookCall :=
  if l.params.wantsInput && l.hooks.source.isSome then [.asked l.input l.inputs] else []

/-- The calls of a cycle, by what its delivery and its output find. -/
def calls (l : Loop ω) (delivery output : Io) : List HookCall :=
  (l.due delivery).map .handed ++ l.plays output ++ l.asks

/-- What a delivery leaves: the cursor is moved past the messages that were handed over, and those that have come
meanwhile are waiting. -/
inductive Delivers (l : Loop ω) (found : Io) : Io → Prop
  | nothing (h : l.due found = []) : Delivers l found found
  | moved {handled : Io} (h : found.Touches handled)
    (hwaiting : handled.waiting = l.due found ++
      (handled.moved (l.due found).length (Midi.Ring.head found.region % found.bank.midi.slots.size)).waiting) :
    Delivers l found
      (handled.moved (l.due found).length (Midi.Ring.head found.region % found.bank.midi.slots.size))

/-- What the output leaves: a block was read from the ring, and then the sink was at work. -/
def Emits (l : Loop ω) (found left : Io) : Prop :=
  Io.Meddles { found with bank.audio.output := (found.bank.audio.output.read (l.frames * l.outputs)).2 } left

/-- What the input leaves: if the engine wants input, the source was at work, and a whole block was written behind
the others into the ring. -/
inductive Absorbs (l : Loop ω) (found : Io) : Io → Prop
  | nothing (h : l.params.wantsInput = false) : Absorbs l found found
  | written {filled : Io} {samples : List Float} (hw : l.params.wantsInput = true) (h : found.Meddles filled)
    (hlength : samples.length = l.frames * l.inputs) :
    Absorbs l found { filled with bank.audio.input := filled.bank.audio.input.write samples }

/-- The calls that a cycle may have made when a callback crashes: some of the deliveries, or all of them and some of
the calls after them. -/
def BreaksOff (others : Gap → Io → Io) (l : Loop ω) (io : Io) (log : List HookCall) : Prop :=
  log <+: (l.due (others .delivery io)).map .handed ∨
    ∃ delivered, l.Delivers (others .delivery io) delivered ∧
      log <+: l.calls (others .delivery io) (others .output delivered)

/-- The head of the loop sees that it has to end. -/
def Ends (io : Io) : Prop := io.region.get .stop = 1 ∨ io.region.get .performing = 0

/-- What a turn may do among others: the calls that it makes, whether it completes a cycle, and what it leaves. -/
inductive Turned (others : Gap → Io → Io) (l : Loop ω) (io : Io) : List HookCall → Bool → Loop ω → Io → Prop
  /-- The loop has ended before. -/
  | gone (h : l.run ≠ .running) : Turned others l io [] false l io
  | ended (hrun : l.run = .running) (h : Ends io) : Turned others l io [] false { l with run := .finished } io
  | rested (hrun : l.run = .running) (h : ¬ Ends io) (hpaused : io.region.get .paused = 1) :
    Turned others l io [] false l io
  | cycled (hrun : l.run = .running) (h : ¬ Ends io) (hpaused : io.region.get .paused ≠ 1)
    {delivered emitted absorbed : Io} {block : List Float}
    (delivers : l.Delivers (others .delivery io) delivered)
    (emits : l.Emits (others .output delivered) emitted)
    (absorbs : l.Absorbs (others .input emitted) absorbed) :
    Turned others l io (l.calls (others .delivery io) (others .output delivered)) true { l with input := block }
      (mark (others .boundary absorbed))
  /-- A callback has crashed, which was called in its turn. -/
  | crashed (hrun : l.run = .running) (h : ¬ Ends io) (hpaused : io.region.get .paused ≠ 1) {left : Io}
    {l' : Loop ω} {log : List HookCall} (hcalls : l.BreaksOff others io log) (hsome : log ≠ [])
    (hrun' : l'.run = .crashed) : Turned others l io log false l' left

/-! ### The parts of a cycle -/

section

variable {l : Loop ω} {io : Io}

theorem handRecords_crashed {f : Midi.Message → ω → Io → Called ω} {c : Called ω} (h : c.crashed = true)
    (n slot : Nat) : handRecords f n slot c = c := by
  cases n with
  | zero => rfl
  | succ n => rw [handRecords, if_pos h]

/-- **The messages that are waiting are handed over one by one**, until one crashes the handler. -/
theorem handRecords_recorded {f : Midi.Message → ω → Io → Called ω}
    (hf : ∀ m w (io : Io), io.Touches (f m w io).io) (hs : io.Seated) {k : Nat}
    (hindex : io.region.get .midiIndex = (Midi.recordSize * k : Nat)) (n : Nat) {j : Nat}
    (hn : j + n = io.waiting.length) {c : Called ω} (hc : io.Touches c.io) (hlive : c.crashed = false)
    (log : List HookCall) :
    let slot := Midi.recordSize * ((k + j) % io.bank.midi.capacity)
    ∃ ms, handRecords (recordedHandler f) n slot (c.noting log) =
        (handRecords f n slot c).noting (log ++ ms.map .handed) ∧
      ms <+: io.waiting.drop j ∧ io.Touches (handRecords f n slot c).io ∧
      ((handRecords f n slot c).crashed = true → ms ≠ []) ∧
      ((handRecords f n slot c).crashed = false → ms = io.waiting.drop j) := by
  induction n generalizing j c log with
  | zero =>
    intro slot
    refine ⟨[], ?_, List.nil_prefix, hc, fun hcrash => ?_, fun _ => ?_⟩
    · rw [List.map_nil, List.append_nil]
      rfl
    · exact absurd (hlive.symm.trans hcrash) (by decide)
    · rw [List.drop_eq_nil_of_le (by omega)]
  | succ n ih =>
    intro slot
    have hgrows := hc.grows hs
    have hj : j < io.waiting.length := by omega
    have hload : Midi.Ring.load c.io.bank.midi.slots slot = io.waiting[j] := hgrows.load_eq hindex hj
    have hnext : (slot + Midi.recordSize) % c.io.bank.midi.slots.size =
        Midi.recordSize * ((k + (j + 1)) % io.bank.midi.capacity) := by
      rw [hgrows.seated.size_eq, hgrows.capacity_eq, Midi.Ring.next_slot, Nat.mod_add_mod]
      rfl
    have hrest : io.waiting.drop j = io.waiting[j] :: io.waiting.drop (j + 1) := List.drop_eq_getElem_cons hj
    let c' : Called ω := f io.waiting[j] c.world c.io
    have hc' : io.Touches c'.io := hc.trans (hf _ _ _)
    have hplain : handRecords f (n + 1) slot c =
        handRecords f n (Midi.recordSize * ((k + (j + 1)) % io.bank.midi.capacity)) c' := by
      rw [handRecords, if_neg (by rw [hlive]; decide)]
      dsimp only
      rw [hload, hnext]
    have hrecorded : handRecords (recordedHandler f) (n + 1) slot (c.noting log) =
        handRecords (recordedHandler f) n (Midi.recordSize * ((k + (j + 1)) % io.bank.midi.capacity))
          (c'.noting (log ++ [.handed io.waiting[j]])) := by
      have hlive' : (c.noting log).crashed = false := hlive
      rw [handRecords, if_neg (by rw [hlive']; decide)]
      dsimp only [Called.noting]
      rw [hload, hnext]
      rfl
    rw [hplain, hrecorded, hrest]
    cases hcrash : c'.crashed with
    | true =>
      rw [handRecords_crashed hcrash, handRecords_crashed (c := c'.noting _) hcrash]
      refine ⟨[io.waiting[j]], rfl, ?_, hc', fun _ => List.cons_ne_nil _ _, fun hlive' => ?_⟩
      · exact List.prefix_cons_inj _ |>.2 List.nil_prefix
      · exact absurd (hcrash.symm.trans hlive') (by decide)
    | false =>
      obtain ⟨ms, heq, hprefix, htouches, -, hall⟩ :=
        ih (j := j + 1) (by omega) hc' hcrash (log ++ [.handed io.waiting[j]])
      refine ⟨io.waiting[j] :: ms, ?_, (List.prefix_cons_inj _).2 hprefix, htouches, fun _ => List.cons_ne_nil _ _,
        fun hlive' => by rw [hall hlive']⟩
      rw [heq, List.append_assoc]
      rfl

/-- What the handler leaves behind when everything that is waiting was handed over, or one message has crashed it. -/
def handAll (f : Midi.Message → ω → Io → Called ω) (w : ω) (io : Io) : Called ω :=
  handRecords f io.waiting.length (Midi.Ring.head io.region % io.bank.midi.slots.size) ⟨w, io, false⟩

theorem handAll_recorded {f : Midi.Message → ω → Io → Called ω} (hf : ∀ m w (io : Io), io.Touches (f m w io).io)
    (hs : io.Seated) (w : ω) (log : List HookCall) :
    ∃ ms, handAll (recordedHandler f) (w, log) io = (handAll f w io).noting (log ++ ms.map .handed) ∧
      ms <+: io.waiting ∧ io.Touches (handAll f w io).io ∧
      ((handAll f w io).crashed = true → ms ≠ []) ∧ ((handAll f w io).crashed = false → ms = io.waiting) := by
  obtain ⟨k, -, hk, -, hindex, -, -⟩ := hs.cursor
  have hslot : Midi.Ring.head io.region % io.bank.midi.slots.size =
      Midi.recordSize * ((k + 0) % io.bank.midi.capacity) := by
    rw [Midi.Ring.head, hindex, Int.toNat_natCast, hs.size_eq, Nat.mul_mod_mul_left]
    rfl
  rw [handAll, handAll, hslot]
  exact handRecords_recorded hf hs hindex io.waiting.length (j := 0) (Nat.zero_add _) (c := ⟨w, io, false⟩)
    .refl rfl log

/-- A drain hands over what is waiting, and moves the cursor past it unless the handler has crashed. -/
theorem drainTo_eq {f : Midi.Message → ω → Io → Called ω} (hsome : io.waiting ≠ []) (w : ω)
    (hsize : (handAll f w io).io.bank.midi.slots.size = io.bank.midi.slots.size) :
    drainTo f w io =
      if (handAll f w io).crashed then handAll f w io
      else ⟨(handAll f w io).world, (handAll f w io).io.moved io.waiting.length
        (Midi.Ring.head io.region % io.bank.midi.slots.size), (handAll f w io).crashed⟩ := by
  have hcount : min (Midi.Ring.pending io.region) io.bank.midi.capacity = io.waiting.length :=
    (Midi.Ring.length_records _ _ _).symm
  have hne : io.waiting.length ≠ 0 := fun h => hsome (List.eq_nil_of_length_eq_zero h)
  rw [drainTo, Io.moved, hsize]
  dsimp only
  rw [hcount, if_neg hne]
  rfl

theorem drainTo_nothing (hnone : io.waiting = []) (f : Midi.Message → ω → Io → Called ω) (w : ω) :
    drainTo f w io = ⟨w, io, false⟩ := by
  have hcount : min (Midi.Ring.pending io.region) io.bank.midi.capacity = io.waiting.length :=
    (Midi.Ring.length_records _ _ _).symm
  rw [drainTo]
  exact if_pos (by rw [hcount, hnone]; rfl)

theorem deliver_eq (l : Loop ω) (w : ω) (io : Io) :
    l.deliver w io = match l.handler? with
      | some f => drainTo f w io
      | none => ⟨w, io, false⟩ := by
  rw [deliver, handler?]
  cases l.params.wantsMidi <;> cases l.hooks.midi <;> rfl

theorem handler?_recorded (l : Loop ω) : l.recorded.handler? = l.handler?.map recordedHandler := by
  rw [handler?, handler?]
  show (if l.params.wantsMidi = true then l.hooks.midi.map recordedHandler else none) = _
  cases l.params.wantsMidi <;> rfl

/-- What a delivery has called, and what it leaves. -/
structure Handed (l : Loop ω) (io : Io) (c : Called ω) (log : List HookCall) : Prop where
  seated : c.io.Seated
  calls : log <+: (l.due io).map .handed
  crashed : c.crashed = true → log ≠ []
  done : c.crashed = false → log = (l.due io).map .handed ∧ l.Delivers io c.io

theorem Handed.nothing (hs : io.Seated) (hdue : l.due io = []) (w : ω) : l.Handed io ⟨w, io, false⟩ [] :=
  ⟨hs, List.nil_prefix, nofun, fun _ => ⟨by rw [hdue]; rfl, .nothing hdue⟩⟩

/-- **A delivery hands over the messages that are due, one by one, and leaves those that have come meanwhile.** -/
theorem deliver_recorded (hh : l.hooks.IsTame) (hs : io.Seated) (w : ω) (log : List HookCall) :
    ∃ calls, l.recorded.deliver (w, log) io = (l.deliver w io).noting (log ++ calls) ∧
      l.Handed io (l.deliver w io) calls := by
  have hquiet : Called.noting ⟨w, io, false⟩ (log ++ []) = ⟨(w, log), io, false⟩ := by
    rw [List.append_nil]
    rfl
  rw [deliver_eq, deliver_eq, handler?_recorded]
  cases hf : l.handler? with
  | none =>
    have hdue : l.due io = [] := by rw [due, hf]; rfl
    exact ⟨[], hquiet.symm, .nothing hs hdue w⟩
  | some f =>
    have hdue : l.due io = io.waiting := by rw [due, hf]; rfl
    have hmidi : l.hooks.midi = some f := by
      rw [handler?] at hf
      split at hf
      · exact hf
      · cases hf
    show ∃ calls, drainTo (recordedHandler f) (w, log) io = (drainTo f w io).noting (log ++ calls) ∧
      l.Handed io (drainTo f w io) calls
    by_cases hsome : io.waiting = []
    · rw [drainTo_nothing hsome, drainTo_nothing hsome]
      exact ⟨[], hquiet.symm, .nothing hs (hdue.trans hsome) w⟩
    · obtain ⟨ms, heq, hprefix, htouches, hcrash, hall⟩ := handAll_recorded (hh.midi f hmidi) hs w log
      have hgrows := htouches.grows hs
      have hsize : (handAll f w io).io.bank.midi.slots.size = io.bank.midi.slots.size := by
        rw [hgrows.seated.size_eq, hgrows.capacity_eq, hs.size_eq]
      obtain ⟨hmoved, hrest⟩ := hgrows.moved hs
      rw [drainTo_eq hsome w hsize, drainTo_eq hsome (w, log) (by rw [heq]; exact hsize), heq]
      refine ⟨ms.map .handed, ?_⟩
      cases hc : (handAll f w io).crashed with
      | true =>
        rw [if_pos (show ((handAll f w io).noting _).crashed = true from hc), if_pos rfl]
        refine ⟨rfl, hgrows.seated, ?_, fun _ h => hcrash hc (List.map_eq_nil_iff.1 h), fun h => ?_⟩
        · rw [hdue]
          exact hprefix.map _
        · exact absurd (hc.symm.trans h) (by decide)
      | false =>
        have hlive : ¬ ((handAll f w io).noting (log ++ ms.map .handed)).crashed = true := fun h =>
          absurd (hc.symm.trans h) (by decide)
        rw [if_neg hlive, if_neg (by decide)]
        have hcalls : ms.map HookCall.handed = (l.due io).map .handed := by rw [hall hc, hdue]
        refine ⟨by rw [← hc]; rfl, hmoved, hcalls ▸ List.prefix_rfl, nofun, fun _ => ⟨hcalls, ?_⟩⟩
        rw [← hdue]
        exact .moved htouches (by rw [hdue]; exact hrest)

theorem block_eq (l : Loop ω) (io : Io) :
    l.block io = (l.nextBlock io,
      { io with bank.audio.output := (io.bank.audio.output.read (l.frames * l.outputs)).2 }) := by
  have hread : (io.bank.audio.output.read (l.frames * l.outputs)).1 =
      io.bank.audio.output.contents.take (l.frames * l.outputs) := Ring.read_fst _ _
  have hlength : l.frames * l.outputs -
      (io.bank.audio.output.contents.take (l.frames * l.outputs)).length =
      l.frames * l.outputs - io.bank.audio.output.contents.length := by
    rw [List.length_take]
    omega
  rw [block]
  dsimp only
  rw [hread, resized, List.take_take, Nat.min_self, hlength]
  rfl

/-- **The output plays the next unread samples**, with silence behind them. -/
theorem emit_recorded (hh : l.hooks.IsTame) (w : ω) (io : Io) (log : List HookCall) :
    l.recorded.emit (w, log) io = (l.emit w io).noting (log ++ l.plays io) ∧ l.Emits io (l.emit w io).io ∧
      ((l.emit w io).crashed = true → l.plays io ≠ []) := by
  have hblock : l.recorded.block io = l.block io := rfl
  have houtputs : l.recorded.outputs = l.outputs := rfl
  rw [emit, emit, hblock, block_eq, plays, houtputs]
  cases hsink : l.hooks.sink with
  | none =>
    have hnone : l.recorded.hooks.sink = none := by rw [recorded, Hooks.recorded, hsink]; rfl
    rw [hnone]
    refine ⟨?_, .refl, fun h => absurd h Bool.false_ne_true⟩
    show _ = Called.noting _ (log ++ [])
    rw [List.append_nil]
    rfl
  | some f =>
    have hsome : l.recorded.hooks.sink = some fun samples channels w io =>
        (f samples channels w.1 io).noting (w.2 ++ [.played samples channels]) := by
      rw [recorded, Hooks.recorded, hsink]
      rfl
    rw [hsome]
    exact ⟨rfl, hh.sink f hsink _ _ _ _, fun _ => List.cons_ne_nil _ _⟩

/-- A loop has an input block of its size. -/
def IsFitted (l : Loop ω) : Prop := l.input.length = l.frames * l.inputs

/-- **The input writes a whole block**, if the engine wants input. -/
theorem absorb_recorded (hh : l.hooks.IsTame) (hfit : l.IsFitted) (w : ω) (io : Io) (log : List HookCall) :
    l.recorded.absorb (w, log) io =
        ((l.absorb w io).1.recorded, (l.absorb w io).2.noting (log ++ l.asks)) ∧
      (∃ block, (l.absorb w io).1 = { l with input := block }) ∧ (l.absorb w io).1.IsFitted ∧
      ((l.absorb w io).2.crashed = true → l.asks ≠ [] ∧ io.Meddles (l.absorb w io).2.io) ∧
      ((l.absorb w io).2.crashed = false → l.Absorbs io (l.absorb w io).2.io) := by
  have hinput : l.recorded.input = l.input := rfl
  have hinputs : l.recorded.inputs = l.inputs := rfl
  have hwants' : l.recorded.params.wantsInput = l.params.wantsInput := rfl
  rw [absorb, absorb, hwants', hinput, hinputs, asks]
  cases hwants : l.params.wantsInput with
  | false =>
    refine ⟨?_, ⟨l.input, rfl⟩, hfit, fun h => absurd h Bool.false_ne_true, fun _ => .nothing hwants⟩
    show _ = (_, Called.noting _ (log ++ []))
    rw [List.append_nil]
    rfl
  | true =>
    cases hsource : l.hooks.source with
    | none =>
      have hnone : l.recorded.hooks.source = none := by rw [recorded, Hooks.recorded, hsource]; rfl
      rw [hnone]
      refine ⟨?_, ⟨l.input, rfl⟩, hfit, fun h => absurd h Bool.false_ne_true, fun _ => .written hwants .refl hfit⟩
      show _ = (_, Called.noting _ (log ++ []))
      rw [List.append_nil]
      rfl
    | some f =>
      have hsome : l.recorded.hooks.source = some fun block channels w io =>
          ((f block channels w.1 io).1, (f block channels w.1 io).2.noting (w.2 ++ [.asked block channels])) := by
        rw [recorded, Hooks.recorded, hsource]
        rfl
      have hmeddles := hh.source f hsource l.input l.inputs w io
      rw [hsome]
      simp only [Bool.not_true, Bool.false_eq_true, if_false, Option.isSome_some, Bool.and_self, if_true]
      by_cases hcrash : (f l.input l.inputs w io).2.crashed = true
      · have hcrash' : ((f l.input l.inputs w io).2.noting (log ++ [.asked l.input l.inputs])).crashed = true := hcrash
        rw [if_pos hcrash', if_pos hcrash]
        exact ⟨rfl, ⟨l.input, rfl⟩, hfit, fun _ => ⟨List.cons_ne_nil _ _, hmeddles⟩,
          fun h => absurd (hcrash.symm.trans h) (by decide)⟩
      · have hcrash' : ¬ ((f l.input l.inputs w io).2.noting (log ++ [.asked l.input l.inputs])).crashed = true :=
          hcrash
        rw [if_neg hcrash', if_neg hcrash]
        refine ⟨rfl, ⟨_, rfl⟩, length_resized _ _, fun h => absurd h hcrash, fun _ => ?_⟩
        exact .written hwants hmeddles (length_resized _ _)

/-! ### A turn -/

theorem Emits.seated {left : Io} (he : l.Emits io left) (hs : io.Seated) : left.Seated :=
  Io.Meddles.seated he (hs.withOutput _)

theorem Absorbs.seated {left : Io} (ha : l.Absorbs io left) (hs : io.Seated) : left.Seated := by
  cases ha with
  | nothing => exact hs
  | written _ h _ => exact (h.seated hs).withInput _

theorem seated_mark (hs : io.Seated) : (mark io).Seated :=
  (hs.congr (mark io) rfl fun f hf => Region.get_set_other io.region 1 (by rintro rfl; revert hf; decide)).1

/-- A cycle that is completed ends with the boundary marked. -/
theorem Turned.marked {others : Gap → Io → Io} {log : List HookCall} {l' : Loop ω} {io' : Io}
    (ht : l.Turned others io log true l' io') : io'.region.get .cycle = 1 := by
  cases ht
  exact Region.get_set_same _ _ _

/-- A block that is played has its full size. -/
theorem length_nextBlock (l : Loop ω) (io : Io) : (l.nextBlock io).length = l.frames * l.outputs := by
  rw [nextBlock, List.length_append, List.length_take, List.length_replicate]
  omega

theorem check_of_ends (h : Ends io) : check io.region = .leave := by
  have hhead : (io.region.isSet .stop || io.region.get .performing == 0) = true := by
    simpa [Region.isSet, Ends] using h
  rw [check, if_pos hhead]

theorem check_of_not_ends (h : ¬ Ends io) :
    check io.region = if io.region.get .paused = 1 then .rest else .cycle := by
  have hhead : ¬ (io.region.isSet .stop || io.region.get .performing == 0) = true := by
    simpa [Region.isSet, Ends] using h
  rw [check, if_neg hhead, Region.isSet]
  simp only [beq_iff_eq]

/-- What is kept from one turn to the next. -/
structure Steady (l l' : Loop ω) (io : Io) : Prop where
  seated : io.Seated
  fitted : l'.IsFitted
  params_eq : l'.params = l.params
  hooks_eq : l'.hooks = l.hooks

/-- **A cycle makes the calls that it has to make**, until one crashes. -/
theorem cycleAmong_recorded (hh : l.hooks.IsTame) (hfit : l.IsFitted) (hs : io.Seated)
    {others : Gap → Io → Io} (hothers : ∀ (gap : Gap) (io : Io), io.Meddles (others gap io)) (w : ω)
    (log : List HookCall) :
    let t := l.cycleAmong others w io
    ∃ calls, l.recorded.cycleAmong others (w, log) io = (t.1, t.2.1.recorded, (t.2.2.1, log ++ calls), t.2.2.2) ∧
      Steady l t.2.1 t.2.2.2 ∧
      (t.1 = true → ∃ delivered emitted absorbed block, l.Delivers (others .delivery io) delivered ∧
        l.Emits (others .output delivered) emitted ∧ l.Absorbs (others .input emitted) absorbed ∧
        calls = l.calls (others .delivery io) (others .output delivered) ∧ t.2.1 = { l with input := block } ∧
        t.2.2.2 = mark (others .boundary absorbed)) ∧
      (t.1 = false → t.2.1.run = .crashed ∧ calls ≠ [] ∧ l.BreaksOff others io calls) := by
  have hs₁ : (others .delivery io).Seated := (hothers .delivery io).seated hs
  obtain ⟨calls, hdeliver, hhanded⟩ := deliver_recorded hh hs₁ w log
  let c₁ := l.deliver w (others .delivery io)
  have hs₂ : (others .output c₁.io).Seated := (hothers .output c₁.io).seated hhanded.seated
  obtain ⟨hemit, hemits, hsinks⟩ := emit_recorded hh c₁.world (others .output c₁.io) (log ++ calls)
  let c₂ := l.emit c₁.world (others .output c₁.io)
  have hs₃ : (others .input c₂.io).Seated := (hothers .input c₂.io).seated (hemits.seated hs₂)
  obtain ⟨habsorb, ⟨block, hblock⟩, hfits, hsources, habsorbs⟩ := absorb_recorded hh hfit c₂.world
    (others .input c₂.io) (log ++ calls ++ l.plays (others .output c₁.io))
  let c₃ := l.absorb c₂.world (others .input c₂.io)
  intro t
  by_cases h₁ : c₁.crashed = true
  · have hplain : t = (false, { l with run := .crashed }, c₁.world, c₁.io) := goOn_crashed h₁ _ _
    rw [hplain]
    refine ⟨calls, ?_, ⟨hhanded.seated, hfit, rfl, rfl⟩, nofun, fun _ =>
      ⟨rfl, hhanded.crashed h₁, .inl hhanded.calls⟩⟩
    rw [cycleAmong, hdeliver]
    exact goOn_crashed (c := c₁.noting _) h₁ _ _
  rw [Bool.not_eq_true] at h₁
  obtain ⟨hcalls, hdelivers⟩ := hhanded.done h₁
  by_cases h₂ : c₂.crashed = true
  · have hplain : t = (false, { l with run := .crashed }, c₂.world, c₂.io) :=
      (goOn_live h₁ _ _).trans (goOn_crashed h₂ _ _)
    rw [hplain]
    refine ⟨calls ++ l.plays (others .output c₁.io), ?_, ⟨hemits.seated hs₂, hfit, rfl, rfl⟩, nofun,
      fun _ => ⟨rfl, fun h => hsinks h₂ (List.append_eq_nil_iff.1 h).2, .inr ⟨c₁.io, hdelivers, ?_⟩⟩⟩
    · rw [cycleAmong, hdeliver, goOn_live (c := c₁.noting _) h₁, ← List.append_assoc]
      show l.recorded.goOn (l.recorded.emit (c₁.world, log ++ calls) (others .output c₁.io)) _ = _
      rw [hemit]
      exact goOn_crashed (c := c₂.noting _) h₂ _ _
    · rw [Loop.calls, hcalls]
      exact List.prefix_append _ _
  rw [Bool.not_eq_true] at h₂
  have hrecorded : l.recorded.cycleAmong others (w, log) io =
      c₃.1.recorded.goOn (c₃.2.noting (log ++ calls ++ l.plays (others .output c₁.io) ++ l.asks)) fun w io =>
        (true, c₃.1.recorded, w, mark (others .boundary io)) := by
    rw [cycleAmong, hdeliver, goOn_live (c := c₁.noting _) h₁]
    show l.recorded.goOn (l.recorded.emit (c₁.world, log ++ calls) (others .output c₁.io)) _ = _
    rw [hemit, goOn_live (c := c₂.noting _) h₂]
    show (match l.recorded.absorb (c₂.world, log ++ calls ++ l.plays (others .output c₁.io))
        (others .input c₂.io) with
      | (l, c) => l.goOn c fun w io => (true, l, w, mark (others .boundary io))) = _
    rw [habsorb]
  have hplain : t = c₃.1.goOn c₃.2 fun w io => (true, c₃.1, w, mark (others .boundary io)) :=
    (goOn_live h₁ l _).trans (goOn_live h₂ l _)
  have hall : log ++ calls ++ l.plays (others .output c₁.io) ++ l.asks =
      log ++ l.calls (others .delivery io) (others .output c₁.io) := by
    rw [Loop.calls, hcalls, List.append_assoc, List.append_assoc, List.append_assoc]
  rw [hrecorded, hplain, hall]
  refine ⟨l.calls (others .delivery io) (others .output c₁.io), ?_⟩
  by_cases h₃ : c₃.2.crashed = true
  · obtain ⟨hasks, hmeddles⟩ := hsources h₃
    rw [goOn_crashed h₃, goOn_crashed (c := c₃.2.noting _) h₃]
    refine ⟨rfl, ⟨hmeddles.seated hs₃, hfits, ?_, ?_⟩, nofun,
      fun _ => ⟨rfl, fun h => ?_, .inr ⟨c₁.io, hdelivers, List.prefix_rfl⟩⟩⟩
    · show c₃.1.params = l.params
      rw [show c₃.1 = _ from hblock]
    · show c₃.1.hooks = l.hooks
      rw [show c₃.1 = _ from hblock]
    · exact hasks (List.append_eq_nil_iff.1 h).2
  · rw [Bool.not_eq_true] at h₃
    have habsorbs := habsorbs h₃
    rw [goOn_live h₃, goOn_live (c := c₃.2.noting _) h₃]
    refine ⟨rfl, ⟨seated_mark ((hothers .boundary _).seated (habsorbs.seated hs₃)), hfits, ?_, ?_⟩,
      fun _ => ⟨_, _, _, block, hdelivers, hemits, habsorbs, rfl, hblock, rfl⟩, nofun⟩
    · show c₃.1.params = l.params
      rw [show c₃.1 = _ from hblock]
    · show c₃.1.hooks = l.hooks
      rw [show c₃.1 = _ from hblock]

/-- **A turn of the loop does what a turn may do**, and records nothing else. -/
theorem turnAmong_recorded (hh : l.hooks.IsTame) (hfit : l.IsFitted) (hs : io.Seated)
    {others : Gap → Io → Io} (hothers : ∀ (gap : Gap) (io : Io), io.Meddles (others gap io)) (w : ω)
    (log : List HookCall) :
    let t := l.turnAmong others w io
    ∃ calls, l.recorded.turnAmong others (w, log) io = (t.1, t.2.1.recorded, (t.2.2.1, log ++ calls), t.2.2.2) ∧
      Steady l t.2.1 t.2.2.2 ∧ l.Turned others io calls t.1 t.2.1 t.2.2.2 := by
  have hrun' : l.recorded.run = l.run := rfl
  have hsame : Steady l l io := ⟨hs, hfit, rfl, rfl⟩
  have hnone : ((w, log) : ω × List HookCall) = (w, log ++ []) := by rw [List.append_nil]
  rw [turnAmong, turnAmong, hrun']
  cases hrun : l.run with
  | finished => exact ⟨[], by rw [← hnone], hsame, .gone (by rw [hrun]; decide)⟩
  | crashed => exact ⟨[], by rw [← hnone], hsame, .gone (by rw [hrun]; decide)⟩
  | running =>
    by_cases hends : Ends io
    · rw [check_of_ends hends]
      exact ⟨[], by rw [← hnone]; rfl, ⟨hs, hfit, rfl, rfl⟩, .ended hrun hends⟩
    · by_cases hpaused : io.region.get .paused = 1
      · rw [check_of_not_ends hends, if_pos hpaused]
        exact ⟨[], by rw [← hnone], hsame, .rested hrun hends hpaused⟩
      · rw [check_of_not_ends hends, if_neg hpaused]
        obtain ⟨calls, heq, hsteady, hdone, hcrashed⟩ := cycleAmong_recorded hh hfit hs hothers w log
        refine ⟨calls, heq, hsteady, ?_⟩
        show l.Turned others io calls (l.cycleAmong others w io).1 (l.cycleAmong others w io).2.1
          (l.cycleAmong others w io).2.2.2
        cases hcompleted : (l.cycleAmong others w io).1 with
        | true =>
          obtain ⟨delivered, emitted, absorbed, block, hdelivers, hemits, habsorbs, rfl, hloop, hleft⟩ :=
            hdone hcompleted
          rw [hloop, hleft]
          exact .cycled hrun hends hpaused hdelivers hemits habsorbs
        | false =>
          obtain ⟨hrun', hsome, hcalls⟩ := hcrashed hcompleted
          exact .crashed hrun hends hpaused hcalls hsome hrun'

end

end Loop

/-! ### Runs -/

/-- A device with the world of its callbacks and the memory. -/
structure Course (ω : Type) where
  device : Device ω
  world : ω
  memory : Memory

/-- What happens while a loop is at work on a handle. -/
inductive Move where
  /-- The others do something. -/
  | meanwhile (f : Io → Io)
  /-- The loop has its turn, among others. -/
  | turn (others : Gap → Io → Io)

/-- The others do nothing but what they may do. -/
def Move.IsTame : Move → Prop
  | meanwhile f => ∀ io : Io, io.Meddles (f io)
  | turn others => ∀ (gap : Gap) (io : Io), io.Meddles (others gap io)

namespace Course

/-- A move, by the handle of the loop. -/
def step (h : Handle) (s : Course ω) : Move → Course ω
  | .meanwhile f => { s with memory := s.memory.setIo h (f (s.memory.io h)) }
  | .turn others =>
    let (device, world, memory) := s.device.turnAmong others s.world s.memory
    ⟨device, world, memory⟩

/-- Several moves. -/
def run (h : Handle) (s : Course ω) (moves : List Move) : Course ω := moves.foldl (step h) s

/-- A move completes a cycle. -/
def completes (s : Course ω) : Move → Bool
  | .meanwhile _ => false
  | .turn others =>
    match s.device.loop with
    | some l => (l.turnAmong others s.world (s.memory.io l.params.io)).1
    | none => false

/-- The number of cycles that moves complete. -/
def completed (h : Handle) (s : Course ω) : List Move → Nat
  | [] => 0
  | x :: xs => (s.completes x).toNat + (s.step h x).completed h xs

/-- The same with callbacks that keep a record, which there is already. -/
def recorded (s : Course ω) (log : List HookCall) : Course (ω × List HookCall) :=
  ⟨s.device.recorded, (s.world, log), s.memory⟩

/-- A loop with certain parameters and callbacks is at work. -/
structure Works (p : Parameters) (h : Hooks ω) (s : Course ω) (l : Loop ω) : Prop where
  loop_eq : s.device.loop = some l
  params_eq : l.params = p
  hooks_eq : l.hooks = h
  fitted : l.IsFitted
  has : s.memory.Has p.io
  seated : (s.memory.io p.io).Seated

section

variable {p : Parameters} {h : Hooks ω} {s : Course ω} {l : Loop ω}

theorem step_turn (hloop : s.device.loop = some l) (h : Handle) (others : Gap → Io → Io) :
    let t := l.turnAmong others s.world (s.memory.io l.params.io)
    s.step h (.turn others) =
      ⟨{ s.device with loop := some t.2.1, cycles := if t.1 then s.device.cycles + 1 else s.device.cycles },
        t.2.2.1, s.memory.setIo l.params.io t.2.2.2⟩ := by
  rw [step, Device.turnAmong, hloop]

/-- **A turn of a device is a turn of its loop**, and counts it if it completes a cycle. -/
theorem Works.turn (hw : s.Works p h l) (htame : h.IsTame) {others : Gap → Io → Io}
    (hothers : (Move.turn others).IsTame) (log : List HookCall) :
    let s' := s.step p.io (.turn others)
    ∃ l' calls, s'.Works p h l' ∧ (s.recorded log).step p.io (.turn others) = s'.recorded (log ++ calls) ∧
      s'.device.cycles = s.device.cycles + (s.completes (.turn others)).toNat ∧
      l.Turned others (s.memory.io p.io) calls (s.completes (.turn others)) l' (s'.memory.io p.io) := by
  obtain ⟨hloop, rfl, rfl, hfit, hhas, hseated⟩ := hw
  obtain ⟨calls, heq, hsteady, hturned⟩ := Loop.turnAmong_recorded htame hfit hseated hothers s.world log
  let t := l.turnAmong others s.world (s.memory.io l.params.io)
  have hstep := step_turn hloop l.params.io others
  have hloop' : (s.recorded log).device.loop = some l.recorded := by
    show s.device.loop.map Loop.recorded = _
    rw [hloop]
    rfl
  have hrecorded : (s.recorded log).step l.params.io (.turn others) =
      (s.step l.params.io (.turn others)).recorded (log ++ calls) := by
    have hturn : l.recorded.turnAmong others (s.recorded log).world
        ((s.recorded log).memory.io l.recorded.params.io) = (t.1, t.2.1.recorded, (t.2.2.1, log ++ calls), t.2.2.2) :=
      heq
    rw [hstep, step_turn hloop', hturn]
    rfl
  have hcompletes : s.completes (.turn others) = t.1 := by rw [completes, hloop]
  have hleft : (s.memory.setIo l.params.io t.2.2.2).io l.params.io = t.2.2.2 := Memory.io_setIo hhas _
  rw [hrecorded, hcompletes, hstep]
  refine ⟨t.2.1, calls, ⟨rfl, hsteady.params_eq, hsteady.hooks_eq, hsteady.fitted, hhas.setIo _, ?_⟩, rfl, ?_, ?_⟩
  · rw [hleft]
    exact hsteady.seated
  · show (if t.1 = true then s.device.cycles + 1 else s.device.cycles) = s.device.cycles + t.1.toNat
    cases t.1 <;> rfl
  · rw [hleft]
    exact hturned

theorem Works.meanwhile (hw : s.Works p h l) {f : Io → Io} (hf : (Move.meanwhile f).IsTame) :
    (s.step p.io (.meanwhile f)).Works p h l := by
  refine ⟨hw.loop_eq, hw.params_eq, hw.hooks_eq, hw.fitted, hw.has.setIo _, ?_⟩
  have hleft : (s.memory.setIo p.io (f (s.memory.io p.io))).io p.io = f (s.memory.io p.io) := Memory.io_setIo hw.has _
  show ((s.memory.setIo p.io (f (s.memory.io p.io))).io p.io).Seated
  rw [hleft]
  exact (hf _).seated hw.seated

/-- **A run counts the cycles that it completes**, and with callbacks that keep a record it is the same run. -/
theorem Works.run (hw : s.Works p h l) (htame : h.IsTame) {moves : List Move} (hmoves : ∀ x ∈ moves, x.IsTame)
    (log : List HookCall) :
    ∃ l' log', (s.run p.io moves).Works p h l' ∧
      (s.recorded log).run p.io moves = (s.run p.io moves).recorded log' ∧
      (s.run p.io moves).device.cycles = s.device.cycles + s.completed p.io moves := by
  induction moves generalizing s l log with
  | nil => exact ⟨l, log, hw, rfl, rfl⟩
  | cons x xs ih =>
    obtain ⟨hx, hxs⟩ := List.forall_mem_cons.1 hmoves
    cases x with
    | meanwhile f =>
      obtain ⟨l', log', hw', heq, hcycles⟩ := ih (hw.meanwhile hx) hxs log
      refine ⟨l', log', hw', heq, hcycles.trans ?_⟩
      rw [completed]
      exact congrArg (s.device.cycles + ·) (Nat.zero_add _).symm
    | turn others =>
      obtain ⟨l₁, calls, hw₁, heq₁, hcycles₁, -⟩ := hw.turn htame hx log
      obtain ⟨l', log', hw', heq, hcycles⟩ := ih hw₁ hxs (log ++ calls)
      refine ⟨l', log', hw', ?_, hcycles.trans ?_⟩
      · show ((s.recorded log).step p.io (.turn others)).run p.io xs = _
        rw [heq₁]
        exact heq
      · rw [hcycles₁, completed, Nat.add_assoc]

end

/-- A loop that is begun has everything that it works with. -/
theorem Works.begin {p : Parameters} {h : Hooks ω} {d : Device ω} (hparams : d.params = some p)
    (hhooks : d.hooks = some h) (w : ω) {m : Memory} (hhas : m.Has p.io) (hseated : (m.io p.io).Seated) :
    d.spawn = (.ok (), { d with hooks := none, loop := some (.start p h), cycles := 0, asleep := 0 }) ∧
      Works p h ⟨d.spawn.2, w, m⟩ (.start p h) := by
  have hspawn : d.spawn = (.ok (), { d with hooks := none, loop := some (.start p h), cycles := 0, asleep := 0 }) := by
    rw [Device.spawn, hparams, hhooks]
  refine ⟨hspawn, ?_, rfl, rfl, List.length_replicate, hhas, hseated⟩
  rw [hspawn]

end Course

theorem Device.spawn_recorded (d : Device ω) : d.recorded.spawn = (d.spawn.1, d.spawn.2.recorded) := by
  rw [spawn, spawn, show d.recorded.params = d.params from rfl,
    show d.recorded.hooks = d.hooks.map Hooks.recorded from rfl]
  cases d.params with
  | none => rfl
  | some p => cases d.hooks <;> rfl

/-- **The render loop does in every turn of every run what a turn may do.**  A loop is begun with some parameters, on
a region whose MIDI cursor lies within its ring.  Then it and the others take turns, the others also come in between
the parts of a cycle, and the callbacks do what they like, within what others may do.

* The loop is begun with the parameters and the callbacks of the device, and its cycles are counted from zero.  The
  count is the number of cycles completed since.
* With callbacks that keep a record it is the same run.  What is recorded in the next turn are the calls of a turn:
  none at all if the head of the loop sees that it has to end, which it does then, or that it is paused; else the
  messages that are waiting, the next unread samples and silence, and the last input block, in this order, up to a
  call that crashes.
* A cycle that is completed has written a whole block of input, and ends with the boundary marked. -/
theorem render_lawful {p : Parameters} {h : Hooks ω} {d : Device ω} (hparams : d.params = some p)
    (hhooks : d.hooks = some h) (htame : h.IsTame) (w : ω) {m : Memory} (hhas : m.Has p.io)
    (hseated : (m.io p.io).Seated) {moves : List Move} (hmoves : ∀ x ∈ moves, x.IsTame) :
    let begun : Course ω := ⟨d.spawn.2, w, m⟩
    let told : Course (ω × List HookCall) := ⟨d.recorded.spawn.2, (w, []), m⟩
    let s := begun.run p.io moves
    d.spawn.1 = .ok () ∧ begun.device.loop = some (.start p h) ∧ begun.device.cycles = 0 ∧
      s.device.cycles = begun.completed p.io moves ∧
      ∃ log, told.run p.io moves = s.recorded log ∧
        ∀ others, (Move.turn others).IsTame →
          let s' := s.step p.io (.turn others)
          ∃ l l' calls, s.device.loop = some l ∧ l.params = p ∧ l.hooks = h ∧ l.IsFitted ∧
            (∀ io, (l.nextBlock io).length = p.hardwareFrames.toNat * p.outputs.toNat) ∧
            s'.device.loop = some l' ∧ told.run p.io (moves ++ [.turn others]) = s'.recorded (log ++ calls) ∧
            l.Turned others (s.memory.io p.io) calls (s.completes (.turn others)) l' (s'.memory.io p.io) ∧
            (s.completes (.turn others) = true → (s'.memory.io p.io).region.get .cycle = 1) := by
  intro begun told s
  obtain ⟨hspawn, hworks⟩ := Course.Works.begin hparams hhooks w hhas hseated
  have htold : told = begun.recorded [] := by
    show (⟨d.recorded.spawn.2, (w, []), m⟩ : Course (ω × List HookCall)) = _
    rw [Device.spawn_recorded]
    rfl
  obtain ⟨l, log, hw, heq, hcycles⟩ := hworks.run htame hmoves []
  have hzero : begun.device.cycles = 0 := by
    show d.spawn.2.cycles = 0
    rw [hspawn]
  refine ⟨by rw [hspawn], hworks.loop_eq, hzero, by rw [← Nat.zero_add (begun.completed _ _), ← hzero]; exact hcycles,
    log, by rw [htold]; exact heq, fun others hothers => ?_⟩
  intro s'
  obtain ⟨l', calls, hw', hstep, -, hturned⟩ := hw.turn htame hothers log
  refine ⟨l, l', calls, hw.loop_eq, hw.params_eq, hw.hooks_eq, hw.fitted, fun io => ?_, hw'.loop_eq, ?_, hturned,
    fun hdone => ?_⟩
  · rw [l.length_nextBlock, Loop.frames, Loop.outputs, hw.params_eq]
  · rw [htold, Course.run, List.foldl_append]
    show ((begun.recorded []).run p.io moves).step p.io (.turn others) = _
    rw [heq]
    exact hstep
  · rw [hdone] at hturned
    exact hturned.marked

/-- A message is queued, and the first cycle hands it over, plays silence, and asks for a block. -/
theorem render_lawful_first :
    let p : Parameters := ⟨44100, 1, 1, 2, 256, true, true, ⟨0, 0⟩⟩
    let h : Hooks Unit :=
      { midi := some fun _ w io => ⟨w, io, false⟩
        sink := some fun _ _ w io => ⟨w, io, false⟩
        source := some fun block _ w io => (block, ⟨w, io, false⟩) }
    let d : Device Unit := { Device.create false h with params := some p }
    let m : Memory := (Memory.allocIo {} 8 4).2
    let note : Midi.Message := .noteOn 0 60 100
    let perform : Move := .meanwhile fun io => { io with region := io.region.set .performing 1 }
    let queue : Move := .meanwhile fun io => { io with
      region := (io.bank.midi.enqueue io.region note).2.2
      bank.midi := (io.bank.midi.enqueue io.region note).2.1 }
    let s : Course Unit := Course.run p.io ⟨d.spawn.2, (), m⟩ [perform, queue]
    let told : Course (Unit × List HookCall) := ⟨d.recorded.spawn.2, ((), []), m⟩
    s.device.cycles = 0 ∧
      (told.run p.io [perform, queue, .turn fun _ => id]).world.2 =
        [.handed note, .played [0, 0] 1, .asked [0, 0] 1] ∧
      ((s.step p.io (.turn fun _ => id)).memory.io p.io).region.get .cycle = 1 := by
  intro p h d m note perform queue s told
  have htame : h.IsTame := ⟨by rintro _ ⟨⟩ m w io; exact .refl, by rintro _ ⟨⟩ xs n w io; exact .refl,
    by rintro _ ⟨⟩ xs n w io; exact .refl⟩
  have hseated : (m.io p.io).Seated := ⟨by decide, by decide, by decide,
    Field.admits_initial (by decide) _, Field.admits_initial (by decide) _⟩
  have hmoves : ∀ x ∈ [perform, queue], x.IsTame := by
    intro x hx
    simp only [List.mem_cons, List.not_mem_nil, or_false] at hx
    rcases hx with rfl | rfl
    · exact fun io => .single (.touch (.word 1 (by decide)))
    · exact fun io => .single (.touch (.message note))
  obtain ⟨-, -, -, hcycles, log, hlog, hturn⟩ :=
    render_lawful (d := d) rfl rfl htame () ⟨by decide, by decide⟩ hseated hmoves
  obtain ⟨l, l', calls, -, -, -, -, -, -, htold, -, hmarked⟩ := hturn (fun _ => id) fun _ _ => .refl
  exact ⟨hcycles, by decide, hmarked (by decide)⟩

end SynthControl.Render
