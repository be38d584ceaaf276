import SynthControl.Proofs.Durations
import SynthControl.Proofs.Renewal
import SynthControl.Proofs.Starting
import SynthControl.Proofs.Unending

/-!
# Rejections that the commands do not heed

The commands set options before they start.  The engine answers a rejection by minus one, and nobody looks at the
answer: the start follows whatever was rejected, and only the size of a block decides on it.

* `CommandLine.Tuning`, `Sine.IsTuned`, `Tuning.call` — what a command sets, what is set in the engine, and **what the
  engine answers**;
* `CommandLine.answers`, `prepare_tuned` — the answers that are not looked at, and **a whole setup**;
* `openSession_eq_none_iff`, `openSession_rests` — how a command opens its session;
* `Session.Rests.start_tuned` — the start after a setup;
* `PerformanceCommand`, `PerformanceCommand.performed`, `capture_eq`, `renderFile_eq` — what a command was told to do,
  its performance, and what is made of that;
* `PerformanceCommand.course`, `performed_eq_none_iff` — what comes of it, and when it fails;
* `setup_unheeded` — **which setups are rejected, and what follows from that**.
-/

namespace SynthControl

open Render

/-! ### What is set -/

/-- What a command sets before it starts. -/
inductive CommandLine.Tuning where
  | frequency (value : Float)
  | duration (value : Float)
  | output

/-- What a setup leaves of the settings of an engine, which does not perform. -/
structure Sine.IsTuned (c : Config) (output : Option String) (duration : Option Float) (e : Sine) : Prop where
  settings : e.settings = c.engine
  performing : e.performing = false
  output : e.output = output
  duration : e.duration = duration

namespace Sine

theorem IsTuned.drain {c : Config} {output : Option String} {duration : Option Float} {e : Sine}
    (h : e.IsTuned c output duration) : (Sine.engine.drain e).2.IsTuned c output duration :=
  ⟨h.settings, h.performing, h.output, h.duration⟩

/-- The answer to an option, and what it leaves. -/
theorem call_setOption (e : Sine) (option : String) :
    e.call .setOption [.str option] = (.ok (e.callSetOption option).1, (e.callSetOption option).2) := rfl

end Sine

namespace CommandLine

/-- The answer to a command that was rejected. -/
def rejection : Except Error (Option Value) := .ok (some (.int (-1)))

namespace Tuning

/-- The command that sets it. -/
def command : Tuning → Command
  | frequency value => .setControlChannel "freq" value
  | duration value => .setOption ("--duration=" ++ Decimal.text value)
  | output => .setOption ("-o" ++ renderTarget)

/-- The duration of the engine afterwards. -/
def score (old : Option Float) : Tuning → Option Float
  | duration value => if value < 0 then old else some value
  | _ => old

/-- The output file of the engine afterwards. -/
def target (old : Option String) : Tuning → Option String
  | output => some renderTarget
  | _ => old

/-- It is a duration below zero. -/
def IsRejected : Tuning → Prop
  | duration value => value < 0
  | _ => False

/-- **The engine rejects a duration below zero**, and nothing else that a command sets. -/
theorem call {c : Config} {o : Option String} {d : Option Float} {e : Sine} (h : e.IsTuned c o d) (t : Tuning) :
    ∃ v e', Sine.engine.call t.command.operation t.command.arguments e = (.ok v, e') ∧
      e'.IsTuned c (t.target o) (t.score d) ∧ (v = .int (-1) ↔ t.IsRejected) := by
  cases t with
  | frequency value =>
    exact ⟨.unit, { e with controls := e.controls.insert "freq" value }, rfl,
      ⟨h.settings, h.performing, h.output, h.duration⟩, iff_of_false (by simp) id⟩
  | duration value =>
    refine ⟨_, _, e.call_setOption _, ?_⟩
    rw [Sine.callSetOption, Sine.setOption?, Sine.readOption_durationText, score, IsRejected]
    by_cases hbelow : value < 0
    · simp only [if_pos hbelow]
      exact ⟨⟨h.settings, h.performing, h.output, h.duration⟩, iff_of_true rfl hbelow⟩
    · simp only [if_neg hbelow]
      exact ⟨⟨h.settings, h.performing, h.output, rfl⟩, iff_of_false (fun h => by cases h) hbelow⟩
  | output =>
    refine ⟨_, _, e.call_setOption _, ?_⟩
    rw [Sine.callSetOption, Sine.setOption?, Sine.readOption_target h.performing]
    exact ⟨⟨h.settings, h.performing, rfl, h.duration⟩, iff_of_false (fun h => by cases h) id⟩

end Tuning

/-! ### A whole setup -/

/-- The answers to some commands that are executed one after another. -/
def answers : List Command → RecordingSession → List (Except Error (Option Value))
  | [], _ => []
  | c :: cs, s => (s.execute Sine.engine c).1 :: answers cs (s.execute Sine.engine c).2

/-- **A setup comes to its end whatever is rejected.**  A rejection leaves what was set before. -/
theorem prepare_tuned {c : Config} (ts : List Tuning) {o : Option String} {d : Option Float} {s : RecordingSession}
    {e : Sine} (h : s.Rests e) (he : e.IsTuned c o d) :
    ∃ s' e', prepare (ts.map Tuning.command) s = some s' ∧ s'.Rests e' ∧
      e'.IsTuned c (ts.foldl Tuning.target o) (ts.foldl Tuning.score d) ∧ s'.transport = s.transport ∧
      s'.memory = s.memory ∧ s'.outlets.device = s.outlets.device ∧
      (rejection ∈ answers (ts.map Tuning.command) s ↔ ∃ t ∈ ts, t.IsRejected) := by
  induction ts generalizing o d s e with
  | nil => exact ⟨s, e, rfl, h, he, rfl, rfl, rfl, by simp [answers]⟩
  | cons t ts ih =>
    obtain ⟨v, e₁, hcall, he₁, hv⟩ := t.call he
    obtain ⟨s₁, hexecute, h₁, htransport₁, hmemory₁, hdevice₁⟩ := h.invoke hcall
    obtain ⟨s', e', hprepare, h', he', htransport, hmemory, hdevice, hrejected⟩ := ih h₁ he₁.drain
    have hexecute' : s.execute Sine.engine t.command = (.ok (some v), s₁) := hexecute
    refine ⟨s', e', ?_, h', he', htransport.trans htransport₁, hmemory.trans hmemory₁, hdevice.trans hdevice₁, ?_⟩
    · rw [List.map_cons, prepare, hexecute']
      exact hprepare
    · have hfirst : rejection = .ok (some v) ↔ t.IsRejected := by
        rw [← hv, rejection, Except.ok.injEq, Option.some.injEq]
        exact eq_comm
      rw [List.map_cons, answers, hexecute', List.mem_cons, hrejected, hfirst, List.exists_mem_cons_iff]

/-! ### The session of a command -/

section

variable {c : Config} {device : Option (Device Recorder)}

/-- A session is opened exactly if the configuration has no fault. -/
theorem openSession_eq_none_iff : openSession c device = none ↔ c.fault? ≠ none := by
  rw [openSession, Session.create]
  cases c.fault? with
  | some f => exact iff_of_true rfl (Option.some_ne_none f)
  | none => exact iff_of_false (Option.some_ne_none _) fun h => h rfl

/-- **An opened session rests**, with the engine of the configuration on fresh memory. -/
theorem openSession_rests {s : RecordingSession} (hs : openSession c device = some s)
    (hd : ∀ d, device = some d → d.loop = none) :
    s.Rests (Sine.fresh ⟨c.engine, []⟩).drain.2 ∧
      s.memory = (Memory.allocIo {} c.buffers.ringSamples c.buffers.midiCapacity).2 ∧ s.transport.io = ⟨0, 0⟩ ∧
      s.outlets.device = device ∧ c.fault? = none := by
  have hvalid : c.fault? = none := by
    by_contra hfault
    rw [openSession_eq_none_iff.2 hfault] at hs
    cases hs
  have hbuild (m : Memory) : (({ bench := { factory := (), memory := m } } : Link Unit Sine).build Sine.engine
      ⟨c.engine, []⟩) =
        (.ok (some 1),
          { bench := { factory := (), hosted := some ⟨(Sine.fresh ⟨c.engine, []⟩).drain.2, none⟩
                       number := 1, memory := m }
            exchange := { nextUid := 2, delivered := [(1, .ok (.int 1))] } }) := rfl
  rw [openSession, Session.create, hvalid] at hs
  dsimp only at hs
  rw [hbuild] at hs
  obtain rfl := Option.some.inj hs
  refine ⟨⟨⟨⟨rfl, rfl, trivial, ?_, rfl, rfl⟩, rfl, rfl⟩, fun m => ?_, rfl, rfl, rfl, rfl⟩, rfl, rfl, rfl, hvalid⟩
  · intro q hq
    obtain rfl := List.mem_singleton.1 hq
    exact Nat.one_lt_two
  · rw [Outlets.isResting]
    split
    · rfl
    · next d hd' => rw [Device.isResting, hd d hd']

end
end CommandLine

/-! ### The start after a setup -/

/-- A start that is accepted keeps the duration, and renders if there is an output file. -/
theorem Sine.start_begins (io : Io) {s : Sine} (hfits : s.blockSamples ≤ io.bank.audio.output.capacity) :
    ∃ e, s.start io = (.ok 0, e, { io with region := s.publish io.region }) ∧
      e.mode = (if s.output.isSome then .offline else .realtime) ∧ e.duration = s.duration := by
  rw [start]
  dsimp only
  rw [if_neg (Nat.not_lt.2 hfits)]
  exact ⟨_, rfl, rfl, rfl⟩

/-- The memory of a new session: a region in which nothing was published, and rings of their size. -/
theorem Memory.allocIo_fresh {c : Config} (hvalid : c.fault? = none) :
    let m := (allocIo {} c.buffers.ringSamples c.buffers.midiCapacity).2
    m.Has ⟨0, 0⟩ ∧ (m.io ⟨0, 0⟩).region = .fresh ∧
      (m.io ⟨0, 0⟩).bank.audio.output.capacity = c.buffers.ringSamples := by
  obtain ⟨-, hchannels, hframes, -⟩ := Config.fault?_eq_none_iff.1 hvalid
  have hring : 0 < c.buffers.ringSamples := Nat.mul_pos hchannels hframes
  exact ⟨⟨Nat.one_pos, Nat.one_pos⟩, rfl, (Ring.holds_create _ _).capacity_eq.trans (Nat.max_eq_left hring)⟩

/-- A performance that was begun in a fresh region is under way. -/
theorem Bench.underWay_begun {m : Memory} {h : Handle} (hm : m.Has h) (hr : (m.io h).region = .fresh) (e : Sine)
    (mode : Mode) :
    ((memoryBegun m h { m.io h with region := e.publish (m.io h).region } mode).region h.region).IsUnderWay mode := by
  have hregion := congrArg Io.region (io_started hm { m.io h with region := e.publish (m.io h).region } mode)
  rw [hr] at hregion
  rw [hr, show Memory.region _ h.region = (e.publish .fresh).set mode.busy 1 from hregion]
  constructor
  · rw [Region.get_set_other _ _ (by cases mode <;> decide), e.publish_get_other _ (by decide)]
    decide
  · rintro rfl
    rw [show Mode.realtime.busy = .performing from rfl, Region.get_set_same]
    decide

namespace Session.Rests

variable {c : Config} {o : Option String} {d : Option Float} {ω : Type} {s : Session Unit Sine ω} {e : Sine}

theorem start_tuned (h : s.Rests e) (he : e.IsTuned c o d) (hvalid : c.fault? = none)
    (hm : s.memory = (Memory.allocIo {} c.buffers.ringSamples c.buffers.midiCapacity).2) (hio : s.transport.io = ⟨0, 0⟩)
    (hk : s.outlets.Keep Io.SameCourse) :
    let mode : Mode := if o.isSome then .offline else .realtime
    if (Sine.fresh ⟨c.engine, []⟩).blockSamples ≤ c.buffers.ringSamples then
      ∃ s', s.start Sine.engine = (.ok 0, s') ∧ s'.playState = mode.started ∧ (d = none → s'.GoesOn ⟨⟨0, 0⟩, mode⟩)
    else ∃ s', s.start Sine.engine = (.ok (-1), s') ∧ s'.playState = .stopped := by
  intro mode
  obtain ⟨hhas, hregion, hcapacity⟩ := Memory.allocIo_fresh hvalid
  rw [← hm, ← hio] at hhas hregion hcapacity
  have hsamples : e.blockSamples = (Sine.fresh ⟨c.engine, []⟩).blockSamples := by
    rw [Sine.blockSamples, he.settings]
    rfl
  split
  · next hfits =>
    rw [← hsamples, ← hcapacity] at hfits
    obtain ⟨e', hstart, hmode, hduration⟩ := Sine.start_begins _ hfits
    obtain ⟨s', hs, hplay, hcalm, hhosted, hmemory, hkeep⟩ := h.start_accepted (E := Sine.engine) hstart
    have hmode' : Sine.engine.mode e' = mode := by
      show e'.mode = mode
      rw [hmode, he.output]
    rw [hmode'] at hplay hhosted hmemory
    refine ⟨s', hs, hplay, fun hd => ⟨⟨hcalm.life, ⟨_, hio ▸ hhosted, ?_⟩, ?_⟩, hcalm.bears, ?_, hkeep hk, hplay⟩⟩
    · show e'.duration = none
      rw [hduration, he.duration, hd]
    · show (s'.memory.region (Handle.mk 0 0).region).IsUnderWay mode
      rw [← hio, hmemory]
      exact Bench.underWay_begun hhas hregion e mode
    · rw [hcalm.reports]
      rfl
  · next hlarge =>
    obtain ⟨e', hstart⟩ := Sine.start_status (s.memory.io s.transport.io) e
    rw [hcapacity, hsamples, if_neg hlarge] at hstart
    obtain ⟨s', hs, hplay, -⟩ := h.start_refused (E := Sine.engine) hstart (by decide)
    exact ⟨s', hs, hplay⟩

/-- A client registers a listener. -/
theorem listen (h : s.Rests e) (kind : EventKind) (l : Listener ω) : (s.listen kind l).Rests e :=
  ⟨⟨h.calm.bears, h.calm.life, h.calm.reports⟩, h.device, h.hosted, h.number, h.playState, h.connected⟩

end Session.Rests

namespace CommandLine

/-! ### What a command was told to do -/

/-- Play in real time, or render into a file. -/
inductive PerformanceCommand where
  | play (duration frequency : Option Float)
  | render (duration : Float) (frequency : Option Float)

namespace PerformanceCommand

/-- The duration that was given. -/
def duration : PerformanceCommand → Option Float
  | play duration _ => duration
  | render duration _ => some duration

/-- The mode of its performance. -/
def mode : PerformanceCommand → Mode
  | play .. => .realtime
  | render .. => .offline

/-- The announcement that it waits for. -/
def ending : PerformanceCommand → EventKind
  | play .. => .realtimeEnded
  | render .. => .renderEnded

/-- The device that it brings along. -/
def device (c : Config) : PerformanceCommand → Option (Device Recorder)
  | play .. => some (recordingDevice c)
  | render .. => none

/-- What it sets before it starts. -/
def setup : PerformanceCommand → List Command
  | play duration frequency => setFrequency frequency ++ setDuration duration
  | render duration frequency =>
    .setOption ("-o" ++ renderTarget) :: setDuration (some duration) ++ setFrequency frequency

/-- Its performance: `none` if it fails before it has begun. -/
def performed (c : Config) (r : PerformanceCommand) : Option RecordingSession := do
  let s ← openSession c (r.device c)
  let s ← prepare r.setup s
  perform r.ending s

end PerformanceCommand

/-- Capturing is playing, and taking what was recorded. -/
theorem capture_eq (c : Config) (duration frequency : Option Float) :
    capture c duration frequency =
      ((PerformanceCommand.play duration frequency).performed c).map fun s => (s.close Sine.engine).world.samples := by
  simp only [PerformanceCommand.performed, Option.bind_eq_bind, Option.map_eq_bind, Option.bind_assoc]
  rfl

/-- The file in an answer, if it is one of samples. -/
def soundFile : Except Error (Option Value) → Option ByteArray
  | .ok (some (.bytes file)) => if Wave.isSound file then some file else none
  | _ => none

/-- Rendering a file is rendering, and taking the file from the engine. -/
theorem renderFile_eq (c : Config) (duration : Float) (frequency : Option Float) :
    renderFile c duration frequency = ((PerformanceCommand.render duration frequency).performed c).bind fun s =>
      soundFile (s.execute Sine.engine (.readFile renderTarget)).1 := by
  simp only [renderFile, PerformanceCommand.performed, PerformanceCommand.device, PerformanceCommand.setup,
    PerformanceCommand.ending, Option.bind_eq_bind, Option.pure_def, Option.bind_assoc]
  refine Option.bind_congr fun s _ => Option.bind_congr fun s _ => Option.bind_congr fun s _ => ?_
  generalize (s.execute Sine.engine (.readFile renderTarget)).1 = answer
  rcases answer with err | _ | v
  · rfl
  · rfl
  · cases v <;> rfl

/-- What it sets, one after another. -/
def PerformanceCommand.tunings : PerformanceCommand → List Tuning
  | play duration frequency => (frequency.map .frequency).toList ++ (duration.map .duration).toList
  | render duration frequency => .output :: .duration duration :: (frequency.map .frequency).toList

namespace PerformanceCommand

theorem setup_eq (r : PerformanceCommand) : r.setup = r.tunings.map Tuning.command := by
  rcases r with ⟨_ | d, _ | f⟩ | ⟨d, _ | f⟩ <;> rfl

/-- Something is rejected exactly if the duration is below zero. -/
theorem exists_isRejected_iff (r : PerformanceCommand) :
    (∃ t ∈ r.tunings, t.IsRejected) ↔ ∃ d, r.duration = some d ∧ d < 0 := by
  rcases r with ⟨_ | d, _ | f⟩ | ⟨d, _ | f⟩ <;> simp [tunings, duration, Tuning.IsRejected]

/-- There is an output file exactly for a render. -/
theorem target_tunings (r : PerformanceCommand) :
    (if (r.tunings.foldl Tuning.target none).isSome then Mode.offline else .realtime) = r.mode := by
  rcases r with ⟨_ | d, _ | f⟩ | ⟨d, _ | f⟩ <;> rfl

/-- Without a duration, or with one that is rejected, none is set. -/
theorem score_tunings {r : PerformanceCommand} (h : ∀ d, r.duration = some d → d < 0) :
    r.tunings.foldl Tuning.score none = none := by
  rcases r with ⟨_ | d, _ | f⟩ | ⟨d, _ | f⟩ <;> simp_all [tunings, duration, Tuning.score]

/-- The device of a command has no loop, and its callback leaves the regions alone. -/
theorem device_rests (c : Config) (r : PerformanceCommand) :
    (∀ d, r.device c = some d → d.loop = none) ∧ ∀ d, r.device c = some d → d.Keep Io.SameCourse := by
  cases r with
  | render =>
    exact ⟨fun d hd => (Option.some_ne_none d hd.symm).elim, fun d hd => (Option.some_ne_none d hd.symm).elim⟩
  | play =>
    have hhooks : Hooks.Keep Io.SameCourse ({ sink := some Recorder.record } : Hooks Recorder) := by
      refine ⟨fun f hf => (Option.some_ne_none f hf.symm).elim, fun f hf xs n w io => ?_,
        fun f hf => (Option.some_ne_none f hf.symm).elim⟩
      obtain rfl := Option.some.inj hf
      exact .refl io.region
    refine ⟨fun d hd => ?_, fun d hd => ?_⟩ <;> obtain rfl := Option.some.inj hd
    · rfl
    · exact Device.create_keep hhooks _

/-- **What comes of a command** once its session is open: the setup comes to its end, and only the size of a block
decides on the start. -/
theorem course {c : Config} {r : PerformanceCommand} {s : RecordingSession} (hs : openSession c (r.device c) = some s) :
    (rejection ∈ answers r.setup s ↔ ∃ d, r.duration = some d ∧ d < 0) ∧ ∃ s₁, prepare r.setup s = some s₁ ∧
      if (Sine.fresh ⟨c.engine, []⟩).blockSamples ≤ c.buffers.ringSamples then
        ∃ s', (s₁.listen r.ending Recorder.notice).start Sine.engine = (.ok 0, s') ∧ s'.playState = r.mode.started ∧
          ((∀ d, r.duration = some d → d < 0) → s'.GoesOn ⟨⟨0, 0⟩, r.mode⟩)
      else ∃ s', (s₁.listen r.ending Recorder.notice).start Sine.engine = (.ok (-1), s') ∧ s'.playState = .stopped := by
  obtain ⟨hloop, hkeep⟩ := device_rests c r
  obtain ⟨hrests, hmemory, hio, hdevice, hvalid⟩ := openSession_rests hs hloop
  obtain ⟨s₁, e₁, hprepare, hrests₁, he₁, htransport₁, hmemory₁, hdevice₁, hrejected⟩ :=
    prepare_tuned r.tunings hrests (c := c) (o := none) (d := none) ⟨rfl, rfl, rfl, rfl⟩
  rw [← setup_eq] at hprepare hrejected
  refine ⟨hrejected.trans r.exists_isRejected_iff, s₁, hprepare, ?_⟩
  have hkeep₁ : s₁.outlets.Keep Io.SameCourse := fun d hd => hkeep d (by rw [← hdevice, ← hdevice₁, hd])
  have hstart := (hrests₁.listen r.ending Recorder.notice).start_tuned he₁ hvalid (hmemory₁.trans hmemory)
    ((congrArg Transport.io htransport₁).trans hio) hkeep₁
  dsimp only at hstart
  rw [target_tunings] at hstart
  split at hstart
  · next hfits =>
    obtain ⟨s', hstarted, hplay, hgoes⟩ := hstart
    rw [if_pos hfits]
    exact ⟨s', hstarted, hplay, fun h => hgoes (score_tunings h)⟩
  · next hlarge =>
    rw [if_neg hlarge]
    exact hstart

/-- **A command fails before it has begun exactly if the configuration has a fault or a block does not fit**; what was
rejected makes no difference. -/
theorem performed_eq_none_iff (c : Config) (r : PerformanceCommand) :
    r.performed c = none ↔
      c.fault? ≠ none ∨ ¬(Sine.fresh ⟨c.engine, []⟩).blockSamples ≤ c.buffers.ringSamples := by
  rw [performed]
  cases hs : openSession c (r.device c) with
  | none => exact iff_of_true rfl (.inl (openSession_eq_none_iff.1 hs))
  | some s =>
    have hvalid : c.fault? = none := (openSession_rests hs (device_rests c r).1).2.2.2.2
    obtain ⟨-, s₁, hprepare, hstart⟩ := course hs
    simp only [Option.bind_eq_bind, Option.bind_some, hprepare, perform]
    split at hstart
    · next hfits =>
      obtain ⟨s', hstarted, -⟩ := hstart
      rw [hstarted]
      exact iff_of_false (Option.some_ne_none _) (not_or.2 ⟨not_not_intro hvalid, not_not_intro hfits⟩)
    · next hlarge =>
      obtain ⟨s', hrefused, -⟩ := hstart
      rw [hrefused]
      exact iff_of_true rfl (.inr hlarge)

end PerformanceCommand

end CommandLine
end SynthControl
