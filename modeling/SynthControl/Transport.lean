import SynthControl.Error
import SynthControl.Memory
import SynthControl.PlayState

/-!
# The transport

The state machine of the life cycle.  It takes note of every phase that is entered, tells the listeners
and the render coordinator, and completes what callers wait for.

* `Parameters`, `Surroundings` — what the coordinator is told, and everyone the transport talks to;
* `Completion` — what becomes of a wait: open, resolved by a phase, or closed without one;
* `Transport` — the phase, where the performance runs, and who waits for what;
* `Transport.enter` — what a phase does to the transport alone;
* `Stage` — a transport with the memory and the surroundings;
* `Stage.change` — a phase is entered;
* `Transport.armStart`, `dropStart`, `disconnect` — a start is waited for, or no longer;
* `Stage.pause`, `resume`, `requestStop`, `replaceRegion` — the other requests of the control side.

A start is completed by the first phase that is entered after it was asked for; a stop by the first ended
phase, after the region was reset and the coordinator was told.  When the worker is gone nothing can be
completed any more.

Main statements: `change_transport`, `get_region_change_of_isEnded` (what a phase does to the transport,
and an end to the region); `pause_refused`, `resume_refused`, `requestStop_refused` (a refused request
changes nothing).
-/

namespace SynthControl

/-- What the coordinator needs for its render cycles. -/
structure Parameters where
  /-- Frames per second. -/
  sampleRate : Int
  inputs : Int
  outputs : Int
  /-- Frames per render cycle. -/
  hardwareFrames : Int
  /-- Frames that the engine keeps ahead. -/
  softwareFrames : Int
  wantsInput : Bool
  wantsMidi : Bool
  io : Handle
  deriving DecidableEq, Repr

/-- What an engine has published in a region for the coordinator. -/
def Parameters.ofRegion (r : Region) (io : Handle) : Parameters :=
  { sampleRate := r.get .sampleRate
    inputs := r.get .inputs
    outputs := r.get .outputs
    hardwareFrames := r.get .hardwareFrames
    softwareFrames := r.get .softwareFrames
    wantsInput := 0 < r.get .inputs
    wantsMidi := r.isSet .wantsMidi
    io := io }

/-- Everyone the transport talks to, with states `κ`.  The coordinator tells whether it succeeded. -/
structure Surroundings (κ : Type) where
  announce : PlayState → κ → Memory → κ × Memory
  /-- The coordinator is given the parameters of a realtime performance. -/
  configure : Parameters → κ → Memory → Bool × κ × Memory
  /-- The coordinator is told of a phase. -/
  follow : PlayState → κ → Memory → Bool × κ × Memory

/-! ### Completions -/

/-- What has become of a wait. -/
inductive Completion where
  | opened
  /-- This phase resolved it, and nobody looked yet. -/
  | resolved (p : PlayState)
  | closed
  deriving DecidableEq, Repr

/-- Every completion that was handed out, by its number. -/
abbrev Completions := Array Completion

namespace Completions

/-- Hand out a completion. -/
def issue (cs : Completions) : Nat × Completions := (cs.size, cs.push .opened)

/-- Give up a completion: it closes, unless it was resolved. -/
def drop (cs : Completions) (i : Nat) : Completions :=
  cs.modify i fun
    | .opened => .closed
    | c => c

/-- Resolve a completion by a phase, unless it is closed. -/
def resolve (cs : Completions) (i : Nat) (p : PlayState) : Completions :=
  cs.modify i fun
    | .opened => .resolved p
    | c => c

/-- Look at a completion. -/
def look (cs : Completions) (i : Nat) : Completion := cs.getD i .closed

/-- Look at a completion and take what resolved it. -/
def take (cs : Completions) (i : Nat) : Completion × Completions :=
  (cs.look i, cs.modify i fun
    | .resolved _ => .closed
    | c => c)

/-- Resolving a completion shows at this one, if it was open. -/
theorem look_resolve (cs : Completions) (i j : Nat) (p : PlayState) :
    (cs.resolve i p).look j =
      if i = j ∧ cs.look j = .opened then .resolved p else cs.look j := by
  unfold resolve look
  rw [Array.getD_eq_getD_getElem?, Array.getD_eq_getD_getElem?, Array.getElem?_modify]
  by_cases hi : i = j
  · rw [if_pos hi]
    cases cs[j]? with
    | none => simp
    | some d => cases d <;> simp [hi]
  · rw [if_neg hi, if_neg fun h => hi h.1]

/-- A completion that was just handed out is open. -/
theorem look_issue (cs : Completions) : cs.issue.2.look cs.issue.1 = .opened := by
  rw [issue, look]
  rw [Array.getD_eq_getD_getElem?, Array.getElem?_push_size]
  rfl

end Completions

/-! ### The transport -/

/-- The phase, where the performance runs, and who waits for what. -/
structure Transport where
  current : PlayState := .stopped
  /-- The region and the rings that an engine is given at a start. -/
  io : Handle
  /-- Every completion that was handed out. -/
  completions : Completions := #[]
  /-- The completion of a start that is waited for. -/
  startSignal : Option Nat := none
  /-- The completion of a stop that is waited for. -/
  stopSignal : Option Nat := none
  disconnected : Bool := false

namespace Transport

/-- Give up the start that is waited for. -/
def dropStart (t : Transport) : Transport :=
  match t.startSignal with
  | none => t
  | some i => { t with startSignal := none, completions := t.completions.drop i }

/-- Give up the stop that is waited for. -/
def dropStop (t : Transport) : Transport :=
  match t.stopSignal with
  | none => t
  | some i => { t with stopSignal := none, completions := t.completions.drop i }

/-- Resolve the start that is waited for. -/
def resolveStart (t : Transport) (p : PlayState) : Transport :=
  match t.startSignal with
  | none => t
  | some i => { t with startSignal := none, completions := t.completions.resolve i p }

/-- Resolve the stop that is waited for. -/
def resolveStop (t : Transport) (p : PlayState) : Transport :=
  match t.stopSignal with
  | none => t
  | some i => { t with stopSignal := none, completions := t.completions.resolve i p }

section

variable (t : Transport) (p : PlayState)

@[simp] theorem dropStart_current : t.dropStart.current = t.current := by
  rw [dropStart]
  split <;> rfl

@[simp] theorem dropStart_startSignal : t.dropStart.startSignal = none := by
  rw [dropStart]
  split
  · assumption
  · rfl

@[simp] theorem dropStop_current : t.dropStop.current = t.current := by
  rw [dropStop]
  split <;> rfl

@[simp] theorem dropStop_startSignal : t.dropStop.startSignal = t.startSignal := by
  rw [dropStop]
  split <;> rfl

@[simp] theorem resolveStart_current : (t.resolveStart p).current = t.current := by
  rw [resolveStart]
  split <;> rfl

@[simp] theorem resolveStart_startSignal : (t.resolveStart p).startSignal = none := by
  rw [resolveStart]
  split
  · assumption
  · rfl

theorem look_resolveStart (c : Nat) :
    (t.resolveStart p).completions.look c =
      if t.startSignal = some c ∧ t.completions.look c = .opened then .resolved p
      else t.completions.look c := by
  rw [resolveStart]
  cases hs : t.startSignal with
  | none => simp
  | some i => simp [Completions.look_resolve]

theorem look_resolveStop (c : Nat) :
    (t.resolveStop p).completions.look c =
      if t.stopSignal = some c ∧ t.completions.look c = .opened then .resolved p
      else t.completions.look c := by
  rw [resolveStop]
  cases hs : t.stopSignal with
  | none => simp
  | some i => simp [Completions.look_resolve]

@[simp] theorem resolveStart_io : (t.resolveStart p).io = t.io := by
  rw [resolveStart]
  split <;> rfl

@[simp] theorem resolveStop_io : (t.resolveStop p).io = t.io := by
  rw [resolveStop]
  split <;> rfl

@[simp] theorem resolveStop_current : (t.resolveStop p).current = t.current := by
  rw [resolveStop]
  split <;> rfl

@[simp] theorem resolveStop_startSignal : (t.resolveStop p).startSignal = t.startSignal := by
  rw [resolveStop]
  split <;> rfl

end

/-- Ask for a start: its completion, which takes the place of an earlier one. -/
def armStart (t : Transport) : Except Error Nat × Transport :=
  if t.disconnected then (.error .disconnected, t)
  else
    let t := t.dropStart
    let (i, cs) := t.completions.issue
    (.ok i, { t with startSignal := some i, completions := cs })

/-- A start that is waited for can be completed, and changes nothing else. -/
theorem armStart_ok {t t' : Transport} {c : Nat} (h : t.armStart = (.ok c, t')) :
    t'.current = t.current ∧ t'.completions.look c = .opened ∧ t'.startSignal = some c := by
  rw [armStart] at h
  split at h
  · cases h
  · cases h
    exact ⟨t.dropStart_current, Completions.look_issue _, rfl⟩

/-- Hand out the completion of a stop, which takes the place of an earlier one. -/
def armStop (t : Transport) : Nat × Transport :=
  let t := t.dropStop
  let (i, cs) := t.completions.issue
  (i, { t with stopSignal := some i, completions := cs })

/-- What a phase does to the transport: at an end the stop is completed, and the start always is. -/
def enter (p : PlayState) (t : Transport) : Transport :=
  let t := { t with current := p }
  (if p.isEnded then t.resolveStop p else t).resolveStart p

theorem enter_current (p : PlayState) (t : Transport) : (t.enter p).current = p := by
  rw [enter, resolveStart_current]
  split
  · exact resolveStop_current _ p
  · rfl

theorem enter_startSignal (p : PlayState) (t : Transport) : (t.enter p).startSignal = none :=
  resolveStart_startSignal _ p

/-- The first phase that is entered completes the start. -/
theorem look_enter_armed (p : PlayState) {t : Transport} {c : Nat} (hs : t.startSignal = some c)
    (hc : t.completions.look c = .opened) : (t.enter p).completions.look c = .resolved p := by
  rw [enter]
  split
  · rw [look_resolveStart, look_resolveStop, resolveStop_startSignal]
    dsimp only
    rw [hs, hc]
    split <;> simp
  · rw [look_resolveStart]
    exact if_pos ⟨hs, hc⟩

/-- What has completed a wait stays. -/
theorem look_enter_resolved (p : PlayState) {t : Transport} {c : Nat} {q : PlayState}
    (hc : t.completions.look c = .resolved q) : (t.enter p).completions.look c = .resolved q := by
  rw [enter]
  split
  · simp [look_resolveStart, look_resolveStop, hc]
  · simp [look_resolveStart, hc]

/-- The worker is gone: nothing that is waited for can come. -/
def disconnect (t : Transport) : Transport :=
  { t.dropStart.dropStop with disconnected := true }

/-- The transport as text. -/
def describe (t : Transport) : String :=
  "PlayStateMachine \x7b current: " ++ t.current.label ++ ", start_armed: "
    ++ toString t.startSignal.isSome ++ ", stop_armed: " ++ toString t.stopSignal.isSome
    ++ ", disconnected: " ++ toString t.disconnected ++ ", .. \x7d"

end Transport

/-! ### The stage -/

/-- A transport with the memory and the surroundings. -/
structure Stage (κ : Type) where
  transport : Transport
  memory : Memory
  around : κ

namespace Stage

variable {κ : Type}

/-- The region of the performance. -/
def region (s : Stage κ) : Region := s.memory.region s.transport.io.region

/-- Change the region of the performance. -/
def onRegion (s : Stage κ) (f : Region → Region) : Stage κ :=
  { s with memory := s.memory.modifyRegion s.transport.io.region f }

/-- The listeners hear of a phase. -/
def announce (S : Surroundings κ) (p : PlayState) (s : Stage κ) : Stage κ :=
  let (around, memory) := S.announce p s.around s.memory
  { s with around := around, memory := memory }

/-- The coordinator is given what the engine published; whether it accepts makes no difference. -/
def configure (S : Surroundings κ) (s : Stage κ) : Stage κ :=
  let (_, around, memory) :=
    S.configure (.ofRegion s.region s.transport.io) s.around s.memory
  { s with around := around, memory := memory }

/-- The coordinator is told of a phase; whether it succeeds makes no difference. -/
def follow (S : Surroundings κ) (p : PlayState) (s : Stage κ) : Stage κ :=
  let (_, around, memory) := S.follow p s.around s.memory
  { s with around := around, memory := memory }

/-- What comes before the coordinator is told of a phase: it is configured for a realtime performance,
the region is reset at an end, and the listeners hear of every phase but `stopped`. -/
def prepare (S : Surroundings κ) (p : PlayState) (s : Stage κ) : Stage κ :=
  match p with
  | .realtimeStarted => (s.configure S).announce S p
  | .realtimeEnded | .renderEnded => (s.onRegion Region.reset).announce S p
  | .realtimePaused | .realtimeResumed | .renderStarted => s.announce S p
  | .stopped => s

/-- What comes after the coordinator was told of a phase: at an end the region is reset again, for a render
cycle may have been in flight, and the stop is completed; and the start is completed. -/
def complete (p : PlayState) (s : Stage κ) : Stage κ :=
  let s := if p.isEnded then
      let s := s.onRegion Region.reset
      { s with transport := s.transport.resolveStop p }
    else s
  { s with transport := s.transport.resolveStart p }

/-- A phase is entered. -/
def change (S : Surroundings κ) (p : PlayState) (s : Stage κ) : Stage κ :=
  let s := { s with transport := { s.transport with current := p } }
  ((s.prepare S p).follow S p).complete p

/-- Whoever is told of a phase, the transport does with it what it does alone. -/
theorem change_transport (S : Surroundings κ) (p : PlayState) (s : Stage κ) :
    (s.change S p).transport = s.transport.enter p := by
  cases p <;> rfl

/-- Whoever is told of an end, it leaves a region that was reset. -/
theorem get_region_change_of_isEnded (S : Surroundings κ) {p : PlayState} (hp : p.isEnded = true)
    (s : Stage κ) (f : Field) : (s.change S p).region.get f = f.initial := by
  rw [change, complete, if_pos hp, region]
  dsimp only
  rw [Transport.resolveStart_io, Transport.resolveStop_io]
  exact Memory.get_modifyRegion_reset _ _ f

/-- Allocate a fresh region for the next performance. -/
def replaceRegion (s : Stage κ) : Stage κ :=
  let (i, memory) := s.memory.allocRegion
  { s with memory := memory, transport := { s.transport with io := { s.transport.io with region := i } } }

/-- A performance runs and was not told to stop. -/
def isRunning (r : Region) : Bool := r.get .stop != 1 && r.get .performing == 1

/-- Pause a running performance; tells whether it was paused. -/
def pause (S : Surroundings κ) (s : Stage κ) : Bool × Stage κ :=
  if s.region.get .paused != 1 && isRunning s.region then
    (true, (s.onRegion fun r => r.set .paused 1).change S .realtimePaused)
  else (false, s)

/-- Resume a paused performance and wake the render loop; tells whether it was resumed. -/
def resume (S : Surroundings κ) (s : Stage κ) : Bool × Stage κ :=
  if s.region.get .paused == 1 && isRunning s.region then
    (true, (s.onRegion fun r => r.lower .paused).change S .realtimeResumed)
  else (false, s)

/-- What a stop writes: a pause is lifted first, so that a woken render loop sees the stop; a realtime
performance is woken at its cycle boundary. -/
def signalStop (current : PlayState) (r : Region) : Region :=
  let r := if current = .realtimePaused then r.lower .paused else r
  let r := (r.set .stop 1).set .performing 0
  if current = .renderStarted then r else r.raise .cycle

/-- Tell everyone to stop, and hand out the completion of the stop; nothing, when the phase cannot be
stopped. -/
def requestStop (s : Stage κ) : Except Error (Option Nat) × Stage κ :=
  if !s.transport.current.isStoppable then (.ok none, s)
  else if s.transport.disconnected then (.error .disconnected, s)
  else
    let (i, t) := s.transport.armStop
    (.ok (some i), { s with transport := t }.onRegion (signalStop t.current))

/-! ### Refusals -/

/-- A pause that is refused changes nothing. -/
theorem pause_refused {S : Surroundings κ} {s : Stage κ} (h : (s.pause S).1 = false) :
    (s.pause S).2 = s := by
  rw [pause] at h ⊢
  split
  · next hc => simp [hc] at h
  · rfl

/-- A resumption that is refused changes nothing. -/
theorem resume_refused {S : Surroundings κ} {s : Stage κ} (h : (s.resume S).1 = false) :
    (s.resume S).2 = s := by
  rw [resume] at h ⊢
  split
  · next hc => simp [hc] at h
  · rfl

/-- A stop that is refused changes nothing. -/
theorem requestStop_refused {s : Stage κ} (h : ∀ i, s.requestStop.1 ≠ .ok (some i)) :
    s.requestStop.2 = s := by
  unfold requestStop at *
  split
  · rfl
  · split
    · rfl
    · simp_all

end Stage
end SynthControl
